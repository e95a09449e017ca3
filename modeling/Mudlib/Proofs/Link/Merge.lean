import Mudlib.Link
import Mudlib.Proofs.Success
set_option autoImplicit false

namespace Mudlib
namespace Link

theorem mem_addNew {ids : List DefinitionId} {id a : DefinitionId} :
    a ∈ addNew ids id ↔ a ∈ ids ∨ a = id := by
  unfold addNew
  split
  next h =>
    constructor
    · exact Or.inl
    · intro ha
      rcases ha with ha | rfl
      · exact ha
      · exact h
  next => simp

theorem mem_union {ids more : List DefinitionId} {a : DefinitionId} :
    a ∈ union ids more ↔ a ∈ ids ∨ a ∈ more := by
  unfold union
  induction more generalizing ids with
  | nil => simp
  | cons id more ih => simp [ih, mem_addNew, or_assoc]

theorem mem_foldl_union {α : Type} {f : α → List DefinitionId} {as : List α}
    {ids : List DefinitionId} {a : DefinitionId} :
    a ∈ as.foldl (fun acc x => union acc (f x)) ids ↔ a ∈ ids ∨ ∃ x ∈ as, a ∈ f x := by
  induction as generalizing ids with
  | nil => simp
  | cons x as ih => simp [ih, mem_union, or_assoc]

theorem mem_lineageOf {parents : List Table} {a : DefinitionId} :
    a ∈ lineageOf parents ↔ ∃ p ∈ parents, a = p.id ∨ a ∈ p.lineage := by
  simp [lineageOf, mem_foldl_union]

theorem depthOf_foldl (parents : List Table) (n : Nat) :
    parents.foldl (fun acc p => max acc (p.depth + 1)) n = max n (depthOf parents) := by
  induction parents generalizing n with
  | nil => simp [depthOf]
  | cons p parents ih =>
    simp only [depthOf, List.foldl_cons]
    rw [ih, ih]
    omega

theorem depthOf_cons (p : Table) (parents : List Table) :
    depthOf (p :: parents) = max (p.depth + 1) (depthOf parents) := by
  have h := depthOf_foldl parents (max 0 (p.depth + 1))
  rw [depthOf, List.foldl_cons, h]
  omega

theorem depthOf_le_iff {parents : List Table} {n : Nat} :
    depthOf parents ≤ n ↔ ∀ p ∈ parents, p.depth + 1 ≤ n := by
  induction parents with
  | nil => simp [depthOf]
  | cons p parents ih => rw [depthOf_cons, Nat.max_le, ih]; simp

theorem lt_depthOf {parents : List Table} {p : Table} (h : p ∈ parents) :
    p.depth < depthOf parents :=
  depthOf_le_iff.mp (Nat.le_refl _) p h

theorem depthOf_attained (parents : List Table) :
    parents = [] ∨ ∃ p ∈ parents, depthOf parents = p.depth + 1 := by
  induction parents with
  | nil => exact .inl rfl
  | cons p parents ih =>
    right
    rw [depthOf_cons]
    rcases ih with rfl | ⟨q, hq, hdepth⟩
    · exact ⟨p, List.mem_cons_self, by simp [depthOf]⟩
    · by_cases hle : depthOf parents ≤ p.depth + 1
      · exact ⟨p, List.mem_cons_self, by omega⟩
      · exact ⟨q, List.mem_cons_of_mem _ hq, by omega⟩

def mergedSlot : Option MethodSlot → MethodSlot → MethodSlot
  | some slot, incoming => joinSlot slot incoming
  | none, incoming => adoptSlot incoming

theorem mergeMethod_eq (methods : Dict String MethodSlot) (e : String × MethodSlot) :
    mergeMethod methods e = methods.insert e.1 (mergedSlot (methods.get? e.1) e.2) := by
  unfold mergeMethod
  split <;> simp [mergedSlot, *]

theorem get?_mergeTable (methods : Dict String MethodSlot) (p : Table) (name : String) :
    (p.methods.toList.foldl mergeMethod methods).get? name =
      ((p.methods.get? name).map (mergedSlot (methods.get? name))).or (methods.get? name) := by
  rw [show mergeMethod = _ from funext₂ mergeMethod_eq]
  exact Dict.get?_foldl_insert mergedSlot p.methods.toList p.methods.nodup_keys methods name

theorem mem_addContribution {ms : List Implementation} {m n : Implementation}
    (h : n ∈ addContribution ms m) : n ∈ ms ∨ n = m := by
  unfold addContribution at h
  split at h
  · exact .inl h
  · simpa using h

theorem mem_foldl_addContribution {more ms : List Implementation} {n : Implementation}
    (h : n ∈ more.foldl addContribution ms) : n ∈ ms ∨ n ∈ more := by
  induction more generalizing ms with
  | nil => exact .inl h
  | cons m more ih =>
    rcases ih h with h | h
    · rcases mem_addContribution h with h | rfl
      · exact .inl h
      · exact .inr List.mem_cons_self
    · exact .inr (List.mem_cons_of_mem _ h)

theorem adoptSlot_implementations (slot : MethodSlot) :
    (adoptSlot slot).implementations = slot.implementations := by
  simp only [adoptSlot]
  split <;> rfl

theorem mem_mergedSlot {held : Option MethodSlot} {incoming : MethodSlot} {m : Implementation}
    (h : m ∈ (mergedSlot held incoming).implementations) :
    (∃ slot, held = some slot ∧ m ∈ slot.implementations) ∨ m ∈ incoming.implementations := by
  cases held with
  | none => rw [mergedSlot, adoptSlot_implementations] at h; exact .inr h
  | some slot => exact (mem_foldl_addContribution h).imp_left fun h => ⟨slot, rfl, h⟩

theorem mem_inheritedMethods {parents : List Table} {name : String} {slot : MethodSlot}
    {m : Implementation} (hs : (inheritedMethods parents).get? name = some slot)
    (hm : m ∈ slot.implementations) :
    ∃ p ∈ parents, ∃ s, p.methods.get? name = some s ∧ m ∈ s.implementations := by
  suffices h : ∀ methods : Dict String MethodSlot,
      (parents.foldl (fun ms p => p.methods.toList.foldl mergeMethod ms) methods).get? name =
        some slot →
      (∃ s, methods.get? name = some s ∧ m ∈ s.implementations) ∨
        ∃ p ∈ parents, ∃ s, p.methods.get? name = some s ∧ m ∈ s.implementations by
    rcases h .empty hs with ⟨s, hs, -⟩ | h
    · simp at hs
    · exact h
  clear hs
  induction parents with
  | nil => intro methods hs; exact .inl ⟨slot, hs, hm⟩
  | cons p parents ih =>
    intro methods hs
    rcases ih _ hs with ⟨s, hs, hm⟩ | ⟨q, hq, s, hs, hm⟩
    · rw [get?_mergeTable] at hs
      cases hp : p.methods.get? name with
      | none => exact .inl ⟨s, by simpa [hp] using hs, hm⟩
      | some incoming =>
        obtain rfl : mergedSlot (methods.get? name) incoming = s := by simpa [hp] using hs
        rcases mem_mergedSlot hm with ⟨held, hh, hm⟩ | hm
        · exact .inl ⟨held, hh, hm⟩
        · exact .inr ⟨p, List.mem_cons_self, incoming, hp, hm⟩
    · exact .inr ⟨q, List.mem_cons_of_mem _ hq, s, hs, hm⟩

def localSlot (held : Option MethodSlot) (m : Implementation) : MethodSlot :=
  ⟨((held.map MethodSlot.implementations).getD []) ++ [m],
    ((held.map MethodSlot.implementations).getD []).length, by simp⟩

theorem addLocalMethod_eq (methods : Dict String MethodSlot) (m : Implementation) :
    addLocalMethod methods m = methods.insert m.name (localSlot (methods.get? m.name) m) := rfl

theorem linkMethod_eq_ok {stamp : Nat} {definition : DefinitionId} {parents : List Table}
    {policy : AmbiguityPolicy} {e : String × MethodDecl} {m : Implementation} :
    linkMethod stamp definition parents policy e = .ok m ↔
      ∃ calls, List.Forall₂ (fun call b =>
          (resolveQualifiedCall definition call parents policy).map (Prod.mk call) = .ok b)
          e.2.calls calls ∧
        m = .mk stamp definition e.1 e.2.body calls := by
  have hbind : ∀ call, (do
      let target ← resolveQualifiedCall definition call parents policy
      return (call, target)) =
        (resolveQualifiedCall definition call parents policy).map (Prod.mk call) := by
    intro call
    cases resolveQualifiedCall definition call parents policy <;> rfl
  simp only [linkMethod, hbind, bind_eq_ok, mapM_eq_ok]
  constructor
  · intro hok
    obtain ⟨calls, hc, hm⟩ := hok
    cases hm
    exact ⟨calls, hc, rfl⟩
  · intro hok
    obtain ⟨calls, hc, rfl⟩ := hok
    exact ⟨calls, hc, rfl⟩

theorem name_of_linkMethod {stamp : Nat} {definition : DefinitionId} {parents : List Table}
    {policy : AmbiguityPolicy} {e : String × MethodDecl} {m : Implementation}
    (h : linkMethod stamp definition parents policy e = .ok m) : m.name = e.1 := by
  obtain ⟨calls, -, rfl⟩ := linkMethod_eq_ok.mp h
  rfl

theorem mem_distinct {ms : List Implementation} {m : Implementation} (h : m ∈ distinct ms) :
    m ∈ ms := by
  suffices hg : ∀ acc, m ∈ ms.foldl
      (fun acc m => if acc.any fun n => n.same m then acc else acc ++ [m]) acc →
        m ∈ acc ∨ m ∈ ms by
    simpa using hg [] h
  clear h
  induction ms with
  | nil => exact fun acc h => .inl h
  | cons n ms ih =>
    intro acc h
    rcases ih _ h with h | h
    · simp only at h
      split at h
      · exact .inl h
      · rcases List.mem_append.mp h with h | h
        · exact .inl h
        · obtain rfl := List.mem_singleton.mp h
          exact .inr List.mem_cons_self
    · exact .inr (List.mem_cons_of_mem _ h)

theorem resolveQualifiedCall_eq_ok {definition : DefinitionId} {call : QualifiedCall}
    {parents : List Table} {policy : AmbiguityPolicy} {m : Implementation}
    (h : resolveQualifiedCall definition call parents policy = .ok m) :
    ∃ p ∈ parents, p.method? call.method = some m ∧ ∀ a, call.ancestor = some a → p.id = a := by
  have of_distinct : ∀ {n : Implementation},
      n ∈ distinct ((parents.filter fun p => p.hasMethod call.method).filterMap fun p =>
        p.method? call.method) → ∃ p ∈ parents, p.method? call.method = some n := by
    intro n hn
    obtain ⟨p, hp, hm⟩ := List.mem_filterMap.mp (mem_distinct hn)
    exact ⟨p, (List.mem_filter.mp hp).1, hm⟩
  unfold resolveQualifiedCall at h
  split at h
  next ancestor hc =>
    split at h
    · cases h
    next parent hf =>
      split at h
      next n hm =>
        cases h
        refine ⟨parent, List.mem_of_find?_eq_some hf, hm, ?_⟩
        intro a ha
        obtain rfl := Option.some.inj (hc.symm.trans ha)
        simpa using List.find?_some hf
      next => cases h
  next hc =>
    cases hd : distinct ((parents.filter fun p => p.hasMethod call.method).filterMap fun p =>
        p.method? call.method) with
    | nil => simp [hd] at h
    | cons n rest =>
      have hn : n = m := by
        cases rest with
        | nil => simpa [hd] using h
        | cons _ _ =>
          cases policy with
          | firstContributor => simpa [hd] using h
          | reject => simp [hd] at h
      obtain ⟨p, hp, hm⟩ := of_distinct (hd ▸ List.mem_cons_self)
      exact ⟨p, hp, hn ▸ hm, by simp [hc]⟩

theorem method?_eq_some {t : Table} {name : String} {m : Implementation}
    (h : t.method? name = some m) :
    ∃ slot, t.methods.get? name = some slot ∧ m ∈ slot.implementations := by
  obtain ⟨slot, hs, rfl⟩ := Option.map_eq_some_iff.mp h
  exact ⟨slot, hs, List.get_mem _ _⟩

end Link

open Link

variable {stamp : Nat} {d : Definition} {parents : List Table} {policy : AmbiguityPolicy} {t : Table}

theorem link_eq_ok :
    link stamp d parents policy = .ok t ↔ ∃ inherited fields locals,
      inheritedFields d.id parents = .ok inherited ∧
      d.fields.toList.foldlM (addLocalField d.id) inherited = .ok fields ∧
      d.methods.toList.mapM (linkMethod stamp d.id parents policy) = .ok locals ∧
      t = {
        stamp := stamp
        id := d.id
        ancestors := d.ancestors
        lineage := lineageOf parents
        depth := depthOf parents
        fields := fields
        methods := locals.foldl addLocalMethod (inheritedMethods parents)
        prototype := d.prototype
        auxiliaries := union (parents.foldl (fun acc p => union acc p.auxiliaries) [])
          d.auxiliaries
        fingerprint := d.fingerprint? } := by
  simp only [link, bind_eq_ok]
  constructor
  · intro hok
    obtain ⟨inherited, hi, fields, hf, locals, hl, ht⟩ := hok
    cases ht
    exact ⟨inherited, fields, locals, hi, hf, hl, rfl⟩
  · intro hok
    obtain ⟨inherited, fields, locals, hi, hf, hl, rfl⟩ := hok
    exact ⟨inherited, hi, fields, hf, locals, hl, rfl⟩

theorem stamp_of_link (h : link stamp d parents policy = .ok t) : t.stamp = stamp := by
  obtain ⟨_, _, _, _, _, _, rfl⟩ := link_eq_ok.mp h
  rfl

theorem id_of_link (h : link stamp d parents policy = .ok t) : t.id = d.id := by
  obtain ⟨_, _, _, _, _, _, rfl⟩ := link_eq_ok.mp h
  rfl

theorem lineage_of_link (h : link stamp d parents policy = .ok t) :
    t.lineage = lineageOf parents := by
  obtain ⟨_, _, _, _, _, _, rfl⟩ := link_eq_ok.mp h
  rfl

theorem depth_of_link (h : link stamp d parents policy = .ok t) : t.depth = depthOf parents := by
  obtain ⟨_, _, _, _, _, _, rfl⟩ := link_eq_ok.mp h
  rfl

theorem keys_of_locals {es : List (String × MethodDecl)} {ms : List Implementation}
    (h : List.Forall₂ (fun e m => linkMethod stamp d.id parents policy e = .ok m) es ms) :
    (ms.map fun m => (m.name, m)).map Prod.fst = es.map Prod.fst := by
  induction h with
  | nil => rfl
  | cons hm _ ih => simpa [name_of_linkMethod hm] using ih

theorem get?_locals {es : List (String × MethodDecl)} {ms : List Implementation}
    (h : List.Forall₂ (fun e m => linkMethod stamp d.id parents policy e = .ok m) es ms)
    (name : String) :
    (Assoc.get? name es = none ∧ Assoc.get? name (ms.map fun m => (m.name, m)) = none) ∨
      ∃ decl m, Assoc.get? name es = some decl ∧
        linkMethod stamp d.id parents policy (name, decl) = .ok m ∧
        Assoc.get? name (ms.map fun m => (m.name, m)) = some m := by
  induction h with
  | nil => exact .inl ⟨rfl, rfl⟩
  | @cons e m es ms hm _ ih =>
    obtain ⟨key, decl⟩ := e
    have hkey := name_of_linkMethod hm
    by_cases hn : name = key
    · subst hn
      exact .inr ⟨decl, m, by simp [Assoc.get?], hm, by simp [Assoc.get?, hkey]⟩
    · simpa [Assoc.get?, hkey, hn] using ih

theorem get?_methods_of_link (h : link stamp d parents policy = .ok t) (name : String) :
    (d.methods.get? name = none ∧ t.methods.get? name = (inheritedMethods parents).get? name) ∨
      ∃ decl m, d.methods.get? name = some decl ∧
        linkMethod stamp d.id parents policy (name, decl) = .ok m ∧
        t.methods.get? name =
          some (localSlot ((inheritedMethods parents).get? name) m) := by
  obtain ⟨_, _, locals, _, _, hl, rfl⟩ := link_eq_ok.mp h
  have hl := mapM_eq_ok.mp hl
  have hn : ((locals.map fun m => (m.name, m)).map Prod.fst).Nodup :=
    keys_of_locals hl ▸ d.methods.nodup_keys
  have hget : (locals.foldl addLocalMethod (inheritedMethods parents)).get? name =
      ((Assoc.get? name (locals.map fun m => (m.name, m))).map
        (localSlot ((inheritedMethods parents).get? name))).or
          ((inheritedMethods parents).get? name) := by
    rw [← Dict.get?_foldl_insert localSlot _ hn, List.foldl_map]
    rfl
  rcases get?_locals hl name with ⟨hd, hm⟩ | ⟨decl, m, hd, hlink, hm⟩
  · exact .inl ⟨hd, by simp [hget, hm]⟩
  · exact .inr ⟨decl, m, hd, hlink, by simp [hget, hm]⟩

theorem mem_methods_of_link (h : link stamp d parents policy = .ok t) {name : String}
    {slot : MethodSlot} {m : Implementation} (hs : t.methods.get? name = some slot)
    (hm : m ∈ slot.implementations) :
    (∃ p ∈ parents, ∃ s, p.methods.get? name = some s ∧ m ∈ s.implementations) ∨
      ∃ decl, d.methods.get? name = some decl ∧
        linkMethod stamp d.id parents policy (name, decl) = .ok m := by
  rcases get?_methods_of_link h name with ⟨-, heq⟩ | ⟨decl, own, hd, hl, heq⟩
  · exact .inl (mem_inheritedMethods (heq ▸ hs) hm)
  · obtain rfl : localSlot ((inheritedMethods parents).get? name) own = slot := by
      simpa [heq] using hs
    rcases List.mem_append.mp hm with hm | hm
    · cases hi : (inheritedMethods parents).get? name with
      | none => simp [hi] at hm
      | some inherited => exact .inl (mem_inheritedMethods hi (by simpa [hi] using hm))
    · obtain rfl := List.mem_singleton.mp hm
      exact .inr ⟨decl, hd, hl⟩

end Mudlib
