import Mudlib.Proofs.Link.Order
/-!
Linking with a parent too many.

A parent whose contributions have all arrived with an earlier one changes nothing: every merge passes
over what is there already, and a call is bound to the first that provides the method. Only a refusal
may go away with such a parent, as it may be the one that a call names.
-/
set_option autoImplicit false

namespace Mudlib
namespace Link

structure Carries (p z : Table) : Prop where
  family : ∀ a ∈ z.id :: z.lineage, a ∈ p.id :: p.lineage
  depth : z.depth ≤ p.depth
  fields : ∀ name slot, z.fields.get? name = some slot →
    ∃ slot', p.fields.get? name = some slot' ∧ slot'.owner = slot.owner
  owners : ∀ name, ∀ a ∈ ownersOf z.methods name, a ∈ ownersOf p.methods name
  auxiliaries : ∀ a ∈ z.auxiliaries, a ∈ p.auxiliaries

section Folds

variable {ε α β : Type} {before after : List α} {z : α} {b : β}

theorem foldl_insert {f : β → α → β} (h : f (before.foldl f b) z = before.foldl f b) :
    (before ++ z :: after).foldl f b = (before ++ after).foldl f b := by
  rw [List.foldl_append, List.foldl_append, List.foldl_cons, h]

theorem foldlM_insert {f : β → α → Except ε β}
    (h : ∀ b', before.foldlM f b = .ok b' → f b' z = .ok b') :
    (before ++ z :: after).foldlM f b = (before ++ after).foldlM f b := by
  rw [List.foldlM_append, List.foldlM_append]
  cases hbefore : before.foldlM f b with
  | error e => rfl
  | ok b' =>
    change (z :: after).foldlM f b' = after.foldlM f b'
    rw [List.foldlM_cons, h b' hbefore]
    rfl

end Folds

variable {before after : List Table} {p z : Table} {name : String} {definition : DefinitionId}

theorem union_eq_self {ids more : List DefinitionId} (h : ∀ a ∈ more, a ∈ ids) :
    union ids more = ids := by
  unfold union
  induction more with
  | nil => rfl
  | cons a more ih =>
    obtain ⟨ha, hmore⟩ := List.forall_mem_cons.mp h
    rw [List.foldl_cons, addNew, if_pos ha]
    exact ih hmore

theorem foldl_union_insert {f : Table → List DefinitionId} (hp : p ∈ before)
    (h : ∀ a ∈ f z, a ∈ f p) :
    (before ++ z :: after).foldl (fun acc q => union acc (f q)) [] =
      (before ++ after).foldl (fun acc q => union acc (f q)) [] :=
  foldl_insert (union_eq_self fun a ha => mem_foldl_union.mpr (.inr ⟨p, hp, h a ha⟩))

theorem depthOf_insert (hp : p ∈ before) (h : z.depth ≤ p.depth) :
    depthOf (before ++ z :: after) = depthOf (before ++ after) := by
  refine foldl_insert (Nat.max_eq_left ?_)
  exact Nat.lt_of_le_of_lt h (lt_depthOf hp)

section Methods

theorem foldl_addContribution_eq_self {ms more : List Implementation}
    (h : ∀ m ∈ more, m.owner ∈ ms.map Implementation.owner) :
    more.foldl addContribution ms = ms := by
  induction more with
  | nil => rfl
  | cons m more ih =>
    obtain ⟨hm, hmore⟩ := List.forall_mem_cons.mp h
    have hheld : (ms.any fun n => n.owner = m.owner) = true := by simpa using hm
    rw [List.foldl_cons, addContribution, if_pos hheld]
    exact ih hmore

theorem joinSlot_eq_self {slot incoming : MethodSlot}
    (h : ∀ a ∈ incoming.owners, a ∈ slot.owners) : joinSlot slot incoming = slot :=
  MethodSlot.ext (foldl_addContribution_eq_self fun _ hm => h _ (List.mem_map_of_mem hm)) rfl

/-- A table all of whose contributors are there already adds nothing to the methods. -/
theorem mergeTable_eq_self {methods : Dict String MethodSlot}
    (h : ∀ name, ∀ a ∈ ownersOf z.methods name, a ∈ ownersOf methods name) :
    z.methods.toList.foldl mergeMethod methods = methods := by
  apply Dict.ext_get?
  intro name
  rw [get?_mergeTable]
  cases hz : z.methods.get? name with
  | none => rw [Option.map_none, Option.none_or]
  | some incoming =>
    have howners := h name
    rw [ownersOf_eq hz] at howners
    cases hs : methods.get? name with
    | none =>
      -- a slot is never empty, so some owner would be there
      have hempty := get?_eq_none_iff_ownersOf.mp hs
      have hincoming : incoming.owners = [] := by
        rw [List.eq_nil_iff_forall_not_mem]
        intro a ha
        simpa [hempty] using howners a ha
      rw [← ownersOf_eq hz, ← get?_eq_none_iff_ownersOf, hz] at hincoming
      cases hincoming
    | some slot =>
      rw [ownersOf_eq hs] at howners
      rw [Option.map_some, Option.some_or, mergedSlot, joinSlot_eq_self howners]

theorem inheritedMethods_insert (hc : Consistent before) (hp : p ∈ before) (h : Carries p z) :
    inheritedMethods (before ++ z :: after) = inheritedMethods (before ++ after) := by
  refine foldl_insert (mergeTable_eq_self fun name a ha => ?_)
  change a ∈ ownersOf (inheritedMethods before) name
  rw [ownersOf_inheritedMethods fun q hq => hc.owners q hq name, mem_foldl_union]
  exact .inr ⟨p, hp, h.owners name a ha⟩

end Methods

section Fields

theorem foldlM_mergeField_eq_self {entries : List (String × FieldSlot)}
    {fields : Dict String FieldSlot}
    (h : ∀ entry ∈ entries, ∃ first, fields.get? entry.1 = some first ∧
      first.owner = entry.2.owner) :
    entries.foldlM (mergeField definition) fields = .ok fields := by
  induction entries with
  | nil => rfl
  | cons entry entries ih =>
    obtain ⟨⟨first, hfirst, howner⟩, hentries⟩ := List.forall_mem_cons.mp h
    have hone : mergeField definition fields entry = .ok fields := by
      simp only [mergeField, hfirst, if_pos howner]
    rw [List.foldlM_cons, hone]
    exact ih hentries

theorem inheritedFields_insert (hp : p ∈ before) (h : Carries p z) :
    inheritedFields definition (before ++ z :: after) =
      inheritedFields definition (before ++ after) := by
  refine foldlM_insert fun fields hbefore => foldlM_mergeField_eq_self fun entry hentry => ?_
  obtain ⟨slot, hslot, howner⟩ := h.fields _ _ ((Dict.mem_toList_iff _ _ _).mp hentry)
  obtain ⟨first, hfirst⟩ := exists_firstSlot? hp hslot
  have hagree := (inheritedFields_eq_ok_iff _).mp ⟨fields, hbefore⟩
  exact ⟨first, (get?_inheritedFields hbefore _).trans hfirst,
    (hagree.owner_eq hfirst hp hslot).trans howner⟩

end Fields

section Calls

variable {call : QualifiedCall} {parents : List Table} {m : Implementation}

theorem head?_distinct (ms : List Implementation) : (distinct ms).head? = ms.head? := by
  suffices hg : ∀ acc : List Implementation,
      (ms.foldl (fun acc m => if acc.any fun n => n.same m then acc else acc ++ [m]) acc).head? =
        (acc ++ ms).head? from
    hg []
  induction ms with
  | nil => simp
  | cons m ms ih =>
    intro acc
    rw [List.foldl_cons, ih]
    split
    next hheld =>
      cases acc with
      | nil => cases hheld
      | cons n acc => rfl
    next => rw [List.append_assoc, List.singleton_append]

theorem resolveQualifiedCall_unnamed (h : call.ancestor = none) :
    resolveQualifiedCall definition call parents .firstContributor = .ok m ↔
      (parents.findSome? fun p => p.method? call.method) = some m := by
  rw [← List.head?_filterMap, ← defaultsOf, ← head?_distinct]
  simp only [resolveQualifiedCall, h, defaultsOf_eq]
  rcases distinct (defaultsOf parents call.method) with _ | ⟨n, _ | ⟨k, rest⟩⟩ <;> simp

theorem resolveQualifiedCall_named {a : DefinitionId} (h : call.ancestor = some a)
    {policy : AmbiguityPolicy} :
    resolveQualifiedCall definition call parents policy = .ok m ↔
      ∃ p, (parents.find? fun p => p.id = a) = some p ∧ p.method? call.method = some m := by
  simp only [resolveQualifiedCall, h]
  cases parents.find? fun p => p.id = a with
  | none => simp
  | some p => cases hm : p.method? call.method <;> simp [hm]

theorem Carries.hasMethod (h : Carries p z) (hz : z.hasMethod name = true) :
    p.hasMethod name = true := by
  obtain ⟨a, ha⟩ := hasMethod_iff.mp hz
  exact hasMethod_iff.mpr ⟨a, h.owners name a ha⟩

theorem resolveQualifiedCall_insert (hc : Consistent (before ++ z :: after)) (hp : p ∈ before)
    (h : Carries p z)
    (hcall : resolveQualifiedCall definition call (before ++ after) .firstContributor = .ok m) :
    resolveQualifiedCall definition call (before ++ z :: after) .firstContributor = .ok m := by
  cases ha : call.ancestor with
  | none =>
    rw [resolveQualifiedCall_unnamed ha, List.findSome?_append] at hcall ⊢
    cases hbefore : before.findSome? fun p => p.method? call.method with
    | some n => rwa [hbefore] at hcall
    | none =>
      have hz : z.method? call.method = none := by
        have hpn : p.method? call.method = none := List.findSome?_eq_none_iff.mp hbefore p hp
        have hlacks : ¬ z.hasMethod call.method = true := fun hz => by
          simpa [Table.hasMethod_eq, hpn] using h.hasMethod hz
        simpa [Table.hasMethod_eq] using hlacks
      rw [hbefore, Option.none_or] at hcall
      rwa [List.findSome?_cons, hz]
  | some a =>
    rw [resolveQualifiedCall_named ha, List.find?_append] at hcall ⊢
    obtain ⟨q, hq, hm⟩ := hcall
    cases hbefore : before.find? fun p => p.id = a with
    | some n => exact ⟨q, by rwa [hbefore] at hq, hm⟩
    | none =>
      rw [hbefore, Option.none_or] at hq
      rw [Option.none_or]
      by_cases hz : z.id = a
      · -- the call names what was inserted, and this is what it has found further on
        have hqid : q.id = a := by simpa using List.find?_some hq
        have hqm : q ∈ before ++ z :: after := by simp [List.mem_of_find?_eq_some hq]
        obtain rfl := hc.tables q hqm z (by simp) (hqid.trans hz.symm)
        exact ⟨q, List.find?_cons_of_pos (decide_eq_true hz), hm⟩
      · exact ⟨q, by rwa [List.find?_cons_of_neg (by simpa using hz)], hm⟩

theorem linkMethod_insert {stamp : Nat} {e : String × MethodDecl}
    (hc : Consistent (before ++ z :: after)) (hp : p ∈ before) (h : Carries p z)
    (hm : linkMethod stamp definition (before ++ after) .firstContributor e = .ok m) :
    linkMethod stamp definition (before ++ z :: after) .firstContributor e = .ok m := by
  obtain ⟨calls, hcalls, rfl⟩ := linkMethod_eq_ok.mp hm
  refine linkMethod_eq_ok.mpr ⟨calls, hcalls.imp fun call b hb => ?_, rfl⟩
  obtain ⟨target, htarget, hb⟩ := map_eq_ok.mp hb
  exact map_eq_ok.mpr ⟨target, resolveQualifiedCall_insert hc hp h htarget, hb⟩

end Calls

end Link

open Link

/-- A definition that links does so, to the same table, with one more parent whose contributions
have all arrived with an earlier one. -/
theorem link_insert {stamp : Nat} {d : Definition} {before after : List Table} {p z t : Table}
    (hc : Consistent (before ++ z :: after)) (hp : p ∈ before) (h : Carries p z)
    (hl : link stamp d (before ++ after) .firstContributor = .ok t) :
    link stamp d (before ++ z :: after) .firstContributor = .ok t := by
  obtain ⟨inherited, fields, locals, hi, hf, hm, rfl⟩ := link_eq_ok.mp hl
  have hcbefore : Consistent before := hc.mono fun q hq => List.mem_append_left _ hq
  have hlocals := mapM_eq_ok.mpr ((mapM_eq_ok.mp hm).imp fun e m => linkMethod_insert hc hp h)
  refine link_eq_ok.mpr ⟨inherited, fields, locals, ?_, hf, hlocals, ?_⟩
  · rw [inheritedFields_insert hp h, hi]
  · have hlineage : lineageOf (before ++ z :: after) = lineageOf (before ++ after) :=
      foldl_union_insert hp h.family
    rw [hlineage, depthOf_insert hp h.depth, inheritedMethods_insert hcbefore hp h,
      foldl_union_insert hp h.auxiliaries]

end Mudlib
