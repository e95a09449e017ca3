import Mudlib.Proofs.Link.Contributions
import Mudlib.Proofs.Link.Faults
import Mudlib.Proofs.Link.Restamp
/-!
Linking with the parents in another order.

Order decides which of several clashes is reported, where things stand in a table and which
implementation is the default. Nothing else depends on it, as long as the parents have been made from
one set of sources.
-/
set_option autoImplicit false

namespace Mudlib

/-- The errors differ at most in what hangs on order: which clash of fields was met first, and how
the candidates for a call are arranged. -/
inductive ResolveError.Reordered : ResolveError → ResolveError → Prop where
  | refl (e : ResolveError) : Reordered e e
  | clash (definition : DefinitionId) (name name' : String)
      (first second first' second' : DefinitionId) :
      Reordered (.fieldConflict definition name first second)
        (.fieldConflict definition name' first' second')
  | candidates (definition : DefinitionId) (method : String) {ids ids' : List DefinitionId} :
      ids.Perm ids' → Reordered (.ambiguousAncestorCall definition method ids)
        (.ambiguousAncestorCall definition method ids')

structure Table.Reordered (t t' : Table) : Prop where
  id : t'.id = t.id
  fields : t'.fields = t.fields
  prototype : t'.prototype = t.prototype
  depth : t'.depth = t.depth
  lineage : ∀ a, a ∈ t'.lineage ↔ a ∈ t.lineage
  auxiliaries : ∀ a, a ∈ t'.auxiliaries ↔ a ∈ t.auxiliaries
  methods : ∀ name, t'.hasMethod name = t.hasMethod name
  owners : ∀ name a, a ∈ Link.ownersOf t'.methods name ↔ a ∈ Link.ownersOf t.methods name

namespace Link

inductive Reordered : Except ResolveError Table → Except ResolveError Table → Prop where
  | refused {e e' : ResolveError} : e.Reordered e' → Reordered (.error e) (.error e')
  | linked {t t' : Table} : t.Reordered t' → Reordered (.ok t) (.ok t')

theorem Reordered.exists_ok {t : Table} {out : Except ResolveError Table}
    (h : Reordered (.ok t) out) : ∃ t', out = .ok t' ∧ t.Reordered t' := by
  cases h with
  | linked ht => exact ⟨_, rfl, ht⟩

/-- The tables show the sources of one registry: an id has one table, an owner one field of a name,
and no definition contributes twice to a method. -/
structure Consistent (parents : List Table) : Prop where
  tables : ∀ p ∈ parents, ∀ q ∈ parents, p.id = q.id → p = q
  fields : ∀ p ∈ parents, ∀ q ∈ parents, ∀ name a b, p.fields.get? name = some a →
    q.fields.get? name = some b → a.owner = b.owner → a = b
  owners : ∀ p ∈ parents, ∀ name, (ownersOf p.methods name).Nodup

section Permuting

variable {definition : DefinitionId} {d : Definition} {parents parents' : List Table}
variable {policy : AmbiguityPolicy} {call : QualifiedCall} {e : ResolveError} {name : String}

theorem Consistent.mono (h : Consistent parents) (hsub : ∀ p ∈ parents', p ∈ parents) :
    Consistent parents' where
  tables := fun p hp q hq => h.tables p (hsub p hp) q (hsub q hq)
  fields := fun p hp q hq => h.fields p (hsub p hp) q (hsub q hq)
  owners := fun p hp => h.owners p (hsub p hp)

theorem Consistent.perm (h : Consistent parents) (hperm : parents.Perm parents') :
    Consistent parents' :=
  h.mono fun _ hp => hperm.mem_iff.mpr hp

theorem FieldsAgree.perm (h : FieldsAgree parents) (hperm : parents.Perm parents') :
    FieldsAgree parents' :=
  fun p hp q hq => h p (hperm.mem_iff.mpr hp) q (hperm.mem_iff.mpr hq)

theorem shadows_perm (hperm : parents.Perm parents') :
    Shadows d parents' name ↔ Shadows d parents name := by
  simp only [Shadows, hperm.mem_iff]

theorem FieldsAgree.firstSlot?_perm (h : FieldsAgree parents) (hc : Consistent parents)
    (hperm : parents.Perm parents') (name : String) :
    firstSlot? parents' name = firstSlot? parents name := by
  cases hslot : firstSlot? parents name with
  | none =>
    rw [firstSlot?, List.findSome?_eq_none_iff] at hslot ⊢
    exact fun p hp => hslot p (hperm.mem_iff.mpr hp)
  | some slot =>
    obtain ⟨p, hp, hps⟩ := firstSlot?_eq_some hslot
    obtain ⟨slot', hslot'⟩ := exists_firstSlot? (hperm.mem_iff.mp hp) hps
    obtain ⟨q, hq, hqs⟩ := firstSlot?_eq_some hslot'
    have hq := hperm.mem_iff.mpr hq
    rw [hslot', hc.fields q hq p hp name slot' slot hqs hps (h.owner_eq hslot hq hqs).symm]

theorem Refused.perm (h : Refused definition call parents policy e) (hc : Consistent parents)
    (hperm : parents.Perm parents') :
    ∃ e', Refused definition call parents' policy e' ∧ e.Reordered e' := by
  cases h with
  | stranger ha hother =>
    exact ⟨_, .stranger ha fun p hp => hother p (hperm.mem_iff.mpr hp), .refl _⟩
  | @lacking a p ha hp hm =>
    have hid : p.id = a := by simpa using List.find?_some hp
    have hmem := List.mem_of_find?_eq_some hp
    have hsome : (parents'.find? fun p => p.id = a).isSome :=
      List.find?_isSome.mpr ⟨p, hperm.mem_iff.mp hmem, decide_eq_true hid⟩
    obtain ⟨q, hq⟩ := Option.isSome_iff_exists.mp hsome
    have hqid : q.id = a := by simpa using List.find?_some hq
    have hqmem := hperm.mem_iff.mpr (List.mem_of_find?_eq_some hq)
    obtain rfl := hc.tables q hqmem p hmem (hqid.trans hid.symm)
    exact ⟨_, .lacking ha hq hm, .refl _⟩
  | unknown ha hnone =>
    exact ⟨_, .unknown ha fun p hp => hnone p (hperm.mem_iff.mpr hp), .refl _⟩
  | ambiguous ha hpolicy hp hq hm hn hapart =>
    exact ⟨_, .ambiguous ha hpolicy (hperm.mem_iff.mp hp) (hperm.mem_iff.mp hq) hm hn hapart,
      .candidates _ _ ((hperm.filter _).map _)⟩

theorem FirstRefused.perm (h : FirstRefused d parents policy e) (hc : Consistent parents)
    (hperm : parents.Perm parents') :
    ∃ e', FirstRefused d parents' policy e' ∧ e.Reordered e' := by
  obtain ⟨before, call, after, heq, hbefore, hrefused⟩ := h
  obtain ⟨e', hrefused', hreordered⟩ := hrefused.perm hc hperm
  refine ⟨e', ⟨before, call, after, heq, ?_, hrefused'⟩, hreordered⟩
  intro c hmem e hc'
  obtain ⟨e', hc', -⟩ := hc'.perm (hc.perm hperm) hperm.symm
  exact hbefore c hmem e' hc'

theorem Fault.perm (h : Fault d parents policy e) (hc : Consistent parents)
    (hperm : parents.Perm parents') : ∃ e', Fault d parents' policy e' ∧ e.Reordered e' := by
  cases h with
  | conflict hclash =>
    have hdisagree : ¬ FieldsAgree parents' := fun hagree =>
      not_fieldsAgree_iff_firstClash.mpr ⟨_, _, _, hclash⟩ (hagree.perm hperm.symm)
    obtain ⟨name, first, second, hclash'⟩ := not_fieldsAgree_iff_firstClash.mp hdisagree
    exact ⟨_, .conflict hclash', .clash ..⟩
  | shadow hagree hleast =>
    obtain ⟨hshadows, hleast, ha⟩ := hleast
    refine ⟨_, .shadow (hagree.perm hperm) ⟨(shadows_perm hperm).mpr hshadows, ?_, ?_⟩, .refl _⟩
    · exact fun n hn hshadows => hleast n hn ((shadows_perm hperm).mp hshadows)
    · rw [hagree.firstSlot?_perm hc hperm, ha]
  | call hagree hnone hrefused =>
    obtain ⟨e', hrefused', hreordered⟩ := hrefused.perm hc hperm
    have hnone' : ∀ name, ¬ Shadows d parents' name := fun name hshadows =>
      hnone name ((shadows_perm hperm).mp hshadows)
    exact ⟨e', .call (hagree.perm hperm) hnone' hrefused', hreordered⟩

theorem depthOf_perm (hperm : parents.Perm parents') : depthOf parents' = depthOf parents := by
  refine Nat.le_antisymm (depthOf_le_iff.mpr fun p hp => ?_) (depthOf_le_iff.mpr fun p hp => ?_)
  · exact lt_depthOf (hperm.mem_iff.mpr hp)
  · exact lt_depthOf (hperm.mem_iff.mp hp)

end Permuting

end Link

open Link

section Linking

variable {stamp stamp' : Nat} {d : Definition} {parents parents' : List Table}
variable {policy : AmbiguityPolicy} {t t' : Table}

theorem fieldsAgree_of_link (h : link stamp d parents policy = .ok t) : FieldsAgree parents := by
  obtain ⟨inherited, _, _, hi, _⟩ := link_eq_ok.mp h
  exact (inheritedFields_eq_ok_iff _).mp ⟨inherited, hi⟩

theorem get?_fields_eq_of_link (h : link stamp d parents policy = .ok t) (name : String) :
    t.fields.get? name =
      ((d.fields.get? name).map fun decl => ⟨d.id, decl.type, decl.default⟩).or
        (firstSlot? parents name) := by
  obtain ⟨inherited, fields, _, hi, hf, _, rfl⟩ := link_eq_ok.mp h
  rw [← get?_inheritedFields hi]
  rcases get?_foldlM_addLocalField d.fields.nodup_keys hf name with
    ⟨hnone, heq⟩ | ⟨decl, hdecl, -, heq⟩
  · have hlocal : d.fields.get? name = none := hnone
    rw [hlocal, Option.map_none, Option.none_or]
    exact heq
  · have hlocal : d.fields.get? name = some decl := hdecl
    rw [hlocal, Option.map_some, Option.some_or]
    exact heq

theorem mem_auxiliaries_of_link (h : link stamp d parents policy = .ok t) {a : DefinitionId} :
    a ∈ t.auxiliaries ↔ (∃ p ∈ parents, a ∈ p.auxiliaries) ∨ a ∈ d.auxiliaries := by
  obtain ⟨_, _, _, _, _, _, rfl⟩ := link_eq_ok.mp h
  simp [mem_union, mem_foldl_union]

theorem mem_ownersOf_link (h : link stamp d parents policy = .ok t) (hc : Consistent parents)
    {name : String} {a : DefinitionId} :
    a ∈ ownersOf t.methods name ↔ (∃ p ∈ parents, a ∈ ownersOf p.methods name) ∨
      a ∈ if d.methods.contains name then [d.id] else [] := by
  rw [ownersOf_link h, ownersOf_inheritedMethods fun p hp => hc.owners p hp name, List.mem_append,
    mem_foldl_union]
  simp

theorem hasMethod_iff {name : String} :
    t.hasMethod name = true ↔ ∃ a, a ∈ ownersOf t.methods name := by
  rw [Table.hasMethod, Dict.contains, Option.isSome_iff_ne_none, ne_eq, get?_eq_none_iff_ownersOf]
  simp [List.eq_nil_iff_forall_not_mem]

theorem reordered_of_link (h : link stamp d parents policy = .ok t)
    (h' : link stamp' d parents' policy = .ok t') (hc : Consistent parents)
    (hperm : parents.Perm parents') : t.Reordered t' := by
  have howners : ∀ name a, a ∈ ownersOf t'.methods name ↔ a ∈ ownersOf t.methods name := by
    intro name a
    rw [mem_ownersOf_link h hc, mem_ownersOf_link h' (hc.perm hperm)]
    simp only [hperm.mem_iff]
  constructor
  case id => rw [id_of_link h, id_of_link h']
  case fields =>
    apply Dict.ext_get?
    intro name
    rw [get?_fields_eq_of_link h, get?_fields_eq_of_link h',
      (fieldsAgree_of_link h).firstSlot?_perm hc hperm]
  case prototype =>
    obtain ⟨_, _, _, _, _, _, rfl⟩ := link_eq_ok.mp h
    obtain ⟨_, _, _, _, _, _, rfl⟩ := link_eq_ok.mp h'
    rfl
  case depth => rw [depth_of_link h, depth_of_link h', depthOf_perm hperm]
  case lineage =>
    intro a
    rw [lineage_of_link h, lineage_of_link h', mem_lineageOf, mem_lineageOf]
    simp only [hperm.mem_iff]
  case auxiliaries =>
    intro a
    rw [mem_auxiliaries_of_link h, mem_auxiliaries_of_link h']
    simp only [hperm.mem_iff]
  case methods =>
    intro name
    rw [Bool.eq_iff_iff, hasMethod_iff, hasMethod_iff]
    simp only [howners]
  case owners => exact howners

theorem link_perm (hc : Consistent parents) (hperm : parents.Perm parents') :
    Reordered (link stamp d parents policy) (link stamp' d parents' policy) := by
  cases h : link stamp d parents policy with
  | error e =>
    obtain ⟨e', hfault, hreordered⟩ := (link_eq_error_iff.mp h).perm hc hperm
    rw [link_eq_error_iff.mpr hfault]
    exact .refused hreordered
  | ok t =>
    cases h' : link stamp' d parents' policy with
    | error e' =>
      obtain ⟨e, hfault, -⟩ := (link_eq_error_iff.mp h').perm (hc.perm hperm) hperm.symm
      rw [link_eq_error_iff.mpr hfault] at h
      cases h
    | ok t' => exact .linked (reordered_of_link h h' hc hperm)

/-- The list of ancestors that a definition declares goes into its table as it is, and into its
fingerprint. -/
theorem link_withAncestors (stamp : Nat) (d : Definition) (ancestors : List DefinitionId)
    (parents : List Table) (policy : AmbiguityPolicy) :
    link stamp { d with ancestors := ancestors } parents policy =
      (link stamp d parents policy).map fun t => { t with
        ancestors := ancestors
        fingerprint := Definition.fingerprint? { d with ancestors := ancestors } } := by
  unfold link
  cases inheritedFields d.id parents with
  | error e => rfl
  | ok inherited =>
    cases hf : d.fields.toList.foldlM (addLocalField d.id) inherited with
    | error e => simp [hf, bind, Except.bind, Except.map]
    | ok fields =>
      cases d.methods.toList.mapM (linkMethod stamp d.id parents policy) with
      | error e => simp [hf, bind, Except.bind, Except.map]
      | ok locals => simp [hf, bind, Except.bind, Except.map, pure, Except.pure]

theorem link_perm_withAncestors (hc : Consistent parents) (hperm : parents.Perm parents')
    (ancestors : List DefinitionId) :
    Reordered (link stamp d parents policy)
      (link stamp' { d with ancestors := ancestors } parents' policy) := by
  have hreordered : Reordered (link stamp d parents policy) (link stamp' d parents' policy) :=
    link_perm hc hperm
  rw [link_withAncestors stamp' d ancestors parents' policy]
  generalize link stamp d parents policy = out at hreordered ⊢
  generalize link stamp' d parents' policy = out' at hreordered ⊢
  cases hreordered with
  | refused h => exact .refused h
  | linked h => exact .linked ⟨h.id, h.fields, h.prototype, h.depth, h.lineage, h.auxiliaries,
      h.methods, h.owners⟩

end Linking

section Restamping

variable {t u v : Table} {stampOf : DefinitionId → Nat}

theorem MethodSlot.owners_restamp (stampOf : DefinitionId → Nat) (slot : MethodSlot) :
    (slot.restamp stampOf).owners = slot.owners := by
  simp [owners]

theorem Link.ownersOf_restamp (stampOf : DefinitionId → Nat) (t : Table) (name : String) :
    ownersOf (t.restamp stampOf).methods name = ownersOf t.methods name := by
  rw [ownersOf, Table.restamp, Dict.get?_mapVal, Option.map_map]
  simp only [Function.comp_def, MethodSlot.owners_restamp]
  rfl

theorem Table.reordered_restamp_iff (stampOf : DefinitionId → Nat) :
    t.Reordered (u.restamp stampOf) ↔ t.Reordered u := by
  constructor
  · intro h
    exact ⟨h.id, h.fields, h.prototype, h.depth, h.lineage, h.auxiliaries,
      fun name => (hasMethod_restamp stampOf u name).symm.trans (h.methods name),
      fun name a => ownersOf_restamp stampOf u name ▸ h.owners name a⟩
  · intro h
    exact ⟨h.id, h.fields, h.prototype, h.depth, h.lineage, h.auxiliaries,
      fun name => (hasMethod_restamp stampOf u name).trans (h.methods name),
      fun name a => (ownersOf_restamp stampOf u name).symm ▸ h.owners name a⟩

theorem Table.Reordered.of_alike (h : t.Reordered u) (halike : v.Alike u) : t.Reordered v := by
  have hsame : v.restamp (fun _ => 0) = u.restamp fun _ => 0 := halike
  rw [← reordered_restamp_iff (fun _ => 0), hsame]
  exact (reordered_restamp_iff _).mpr h

theorem Link.Reordered.of_restamp {x y z : Except ResolveError Table} (h : Reordered x y)
    (heq : y.map (Table.restamp stampOf) = z.map (Table.restamp stampOf)) : Reordered x z := by
  cases h with
  | refused h =>
    cases z with
    | error e => exact .refused (Except.error.inj heq ▸ h)
    | ok v => cases heq
  | linked h =>
    cases z with
    | error e => cases heq
    | ok v =>
      refine .linked ((Table.reordered_restamp_iff stampOf).mp ?_)
      rw [← Except.ok.inj heq]
      exact (Table.reordered_restamp_iff stampOf).mpr h

end Restamping

end Mudlib
