import Mathlib.Logic.Relation
import Mudlib.Registry.Resolve
import Mudlib.Proofs.Link.Merge
/-!
The cache of a registry always shows what its sources say.

`Coherent` is what every operation keeps: each cached table is what its stored source links to
against the cached tables of its ancestors. All else about the cache follows from it, in particular
that the tables hold one and the same implementation of a method wherever they inherit it from one
definition.
-/
set_option autoImplicit false

namespace Mudlib.Registry

def loadable? (r : Registry) (id : DefinitionId) : Option Definition :=
  r.loader.bind fun load => (load id).toOption.join

/-- The source that counts for an id: the stored one, or else the loader's. -/
def effective? (r : Registry) (id : DefinitionId) : Option Definition :=
  (r.source? id).or (r.loadable? id)

def Inherits (sources : DefinitionId → Option Definition) (a b : DefinitionId) : Prop :=
  ∃ d, sources a = some d ∧ b ∈ d.ancestors

structure Coherent (r : Registry) : Prop where
  keyed : ∀ {id d}, r.source? id = some d → d.id = id
  made : ∀ {id t}, r.cached? id = some t → ∃ d parents, r.source? id = some d ∧
    List.Forall₂ (fun a p => r.cached? a = some p) d.ancestors parents ∧
    link t.stamp d parents r.policy = .ok t
  fresh : ∀ {id t}, r.cached? id = some t → t.stamp < r.linked
  apart : ∀ {id id' t t'}, r.cached? id = some t → r.cached? id' = some t' →
    t.stamp = t'.stamp → id = id'
  shallow : ∀ {id t}, r.cached? id = some t → t.depth ≤ r.maxDepth

theorem coherent_empty (policy : AmbiguityPolicy) (maxDepth : Nat) (loader : Option Loader) :
    Coherent (empty policy maxDepth loader) := by
  have hs : ∀ id, (empty policy maxDepth loader).source? id = none := fun id => Dict.get?_empty id
  have ht : ∀ id, (empty policy maxDepth loader).cached? id = none := fun id => Dict.get?_empty id
  constructor <;> intro id <;> simp [hs, ht]

namespace Coherent

variable {r : Registry} {id a : DefinitionId} {t : Table} {d : Definition}

theorem id_eq (h : Coherent r) (ht : r.cached? id = some t) : t.id = id := by
  obtain ⟨d, parents, hd, -, hl⟩ := h.made ht
  rw [id_of_link hl, h.keyed hd]

theorem effective_of_cached (h : Coherent r) (ht : r.cached? id = some t) :
    ∃ d parents, r.effective? id = some d ∧ d.id = id ∧
      List.Forall₂ (fun a p => r.cached? a = some p) d.ancestors parents ∧
      link t.stamp d parents r.policy = .ok t := by
  obtain ⟨d, parents, hd, hp, hl⟩ := h.made ht
  exact ⟨d, parents, by simp [effective?, hd], h.keyed hd, hp, hl⟩

/-- What holds of a cached table as soon as it holds of the tables that it was linked against holds
of all of them, since these are shallower. -/
theorem of_parents (h : Coherent r) {P : DefinitionId → Table → Prop}
    (step : ∀ {id t d parents}, r.cached? id = some t → r.effective? id = some d → d.id = id →
      List.Forall₂ (fun a p => r.cached? a = some p) d.ancestors parents →
      link t.stamp d parents r.policy = .ok t →
      (∀ a p, p ∈ parents → r.cached? a = some p → P a p) → P id t)
    (ht : r.cached? id = some t) : P id t := by
  induction hn : t.depth using Nat.strongRecOn generalizing id t with
  | ind n ih =>
    subst hn
    obtain ⟨d, parents, hd, hid, hp, hl⟩ := h.effective_of_cached ht
    refine step ht hd hid hp hl ?_
    intro a p hmem hap
    exact ih p.depth (depth_of_link hl ▸ Link.lt_depthOf hmem) hap rfl

theorem cached_of_inherits (h : Coherent r) (ht : r.cached? id = some t)
    (ha : Inherits r.effective? id a) : ∃ u, r.cached? a = some u ∧ u.depth < t.depth := by
  obtain ⟨d, parents, hd, hp, hl⟩ := h.made ht
  obtain ⟨e, he, ha⟩ := ha
  obtain rfl : d = e := by simpa [effective?, hd] using he
  obtain ⟨p, hmem, hap⟩ := exists_mem_of_forall₂ hp.flip ha
  exact ⟨p, hap, depth_of_link hl ▸ Link.lt_depthOf hmem⟩

theorem cached_of_inherits_many (h : Coherent r) (ht : r.cached? id = some t)
    (ha : Relation.TransGen (Inherits r.effective?) id a) :
    ∃ u, r.cached? a = some u ∧ u.depth < t.depth := by
  induction ha with
  | single hb => exact h.cached_of_inherits ht hb
  | tail _ hb ih =>
    obtain ⟨u, hu, hut⟩ := ih
    obtain ⟨v, hv, hvu⟩ := h.cached_of_inherits hu hb
    exact ⟨v, hv, Nat.lt_trans hvu hut⟩

theorem inherits_of_mem_lineage (h : Coherent r) (ht : r.cached? id = some t)
    (ha : a ∈ t.lineage) : Relation.TransGen (Inherits r.effective?) id a := by
  revert ha
  refine h.of_parents (P := fun id t => a ∈ t.lineage →
    Relation.TransGen (Inherits r.effective?) id a) ?_ ht
  intro id t d parents _ hd _ hp hl ih ha
  rw [lineage_of_link hl, Link.mem_lineageOf] at ha
  obtain ⟨p, hmem, ha⟩ := ha
  obtain ⟨b, hb, hbp⟩ := exists_mem_of_forall₂ hp hmem
  rcases ha with rfl | ha
  · rw [h.id_eq hbp]
    exact .single ⟨d, hd, hb⟩
  · exact .head ⟨d, hd, hb⟩ (ih b p hmem hbp ha)

theorem not_mem_lineage (h : Coherent r) (ht : r.cached? id = some t) : id ∉ t.lineage := by
  intro hmem
  obtain ⟨u, hu, hlt⟩ := h.cached_of_inherits_many ht (h.inherits_of_mem_lineage ht hmem)
  rw [ht] at hu
  cases hu
  exact Nat.lt_irrefl _ hlt

theorem withSources (h : Coherent r) {sources : Dict DefinitionId Definition}
    (keyed : ∀ {id d}, sources.get? id = some d → d.id = id)
    (same : ∀ {id t}, r.cached? id = some t → sources.get? id = r.source? id) :
    Coherent { r with sources := sources } where
  keyed := keyed
  made := by
    intro id t ht
    obtain ⟨d, parents, hd, hp, hl⟩ := h.made ht
    exact ⟨d, parents, (same ht).trans hd, hp, hl⟩
  fresh := h.fresh
  apart := h.apart
  shallow := h.shallow

theorem insertSource (h : Coherent r) (hn : r.cached? d.id = none) :
    Coherent { r with sources := r.sources.insert d.id d } := by
  apply h.withSources
  · intro id e he
    rw [Dict.get?_insert] at he
    split at he
    next hid => cases he; exact hid.symm
    next => exact h.keyed he
  · intro id t ht
    have hid : id ≠ d.id := by
      intro heq
      rw [heq, hn] at ht
      cases ht
    exact Dict.get?_insert_of_ne _ _ hid

theorem eraseSource (h : Coherent r) (hn : r.cached? id = none) :
    Coherent { r with sources := r.sources.erase id } := by
  apply h.withSources
  · intro id' e he
    rw [Dict.get?_erase] at he
    split at he
    · cases he
    · exact h.keyed he
  · intro id' t ht
    have hid : id' ≠ id := by
      intro heq
      rw [heq, hn] at ht
      cases ht
    rw [Dict.get?_erase, if_neg hid]
    rfl

end Coherent

theorem cached?_invalidate (r : Registry) (id key : DefinitionId) :
    (r.invalidate id).cached? key = (r.cached? key).filter fun t => !falls id key t :=
  get?_tables_invalidate r id key

theorem cached?_invalidate_eq_some {r : Registry} {id key : DefinitionId} {t : Table} :
    (r.invalidate id).cached? key = some t ↔
      r.cached? key = some t ∧ key ≠ id ∧ id ∉ t.lineage := by
  simp [cached?_invalidate, Option.filter_eq_some_iff, falls, Table.dependsOn]

theorem cached?_invalidate_self (r : Registry) (id : DefinitionId) :
    (r.invalidate id).cached? id = none := by
  cases h : (r.invalidate id).cached? id with
  | none => rfl
  | some t => exact absurd rfl (cached?_invalidate_eq_some.mp h).2.1

namespace Coherent

variable {r : Registry} {id : DefinitionId} {d : Definition}

/-- A table that stays has all that it was made from: whatever falls takes along what embeds it. -/
theorem invalidate (h : Coherent r) (id : DefinitionId) : Coherent (r.invalidate id) where
  keyed := h.keyed
  made := by
    intro key t ht
    obtain ⟨ht, -, hid⟩ := cached?_invalidate_eq_some.mp ht
    obtain ⟨d, parents, hd, hp, hl⟩ := h.made ht
    refine ⟨d, parents, hd, forall₂_imp_of_mem hp ?_, hl⟩
    intro a p hmem hap
    rw [lineage_of_link hl, Link.mem_lineageOf] at hid
    refine cached?_invalidate_eq_some.mpr ⟨hap, ?_, fun hin => hid ⟨p, hmem, .inr hin⟩⟩
    intro heq
    subst heq
    exact hid ⟨p, hmem, .inl (h.id_eq hap).symm⟩
  fresh := fun ht => h.fresh (cached?_invalidate_eq_some.mp ht).1
  apart := fun ht ht' =>
    h.apart (cached?_invalidate_eq_some.mp ht).1 (cached?_invalidate_eq_some.mp ht').1
  shallow := fun ht => h.shallow (cached?_invalidate_eq_some.mp ht).1

theorem register (h : Coherent r) (d : Definition) : Coherent (r.register d) :=
  (h.invalidate d.id).insertSource (cached?_invalidate_self r d.id)

theorem unload (h : Coherent r) (id : DefinitionId) : Coherent (r.unload id) :=
  (h.invalidate id).eraseSource (cached?_invalidate_self r id)

theorem restoreSource (h : Coherent r) (hn : r.cached? id = none) {former : Option Definition}
    (hf : ∀ d, former = some d → d.id = id) : Coherent (r.restoreSource id former) := by
  cases former with
  | none => exact h.eraseSource hn
  | some d =>
    obtain rfl := hf d rfl
    exact h.insertSource hn

end Coherent

end Mudlib.Registry
