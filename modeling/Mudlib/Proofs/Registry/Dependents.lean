import Mudlib.Proofs.Registry.Contributions
set_option autoImplicit false

namespace Mudlib.Registry

variable {r : Registry} {id a b : DefinitionId} {t : Table}

def Without (ids : List DefinitionId) (r r' : Registry) : Prop :=
  ∀ a, r'.cached? a = if a ∈ ids then none else r.cached? a

theorem falls_iff : falls id a t = true ↔ a = id ∨ id ∈ t.lineage := by
  simp [falls, Table.dependsOn]

theorem mem_dependents : a ∈ r.dependents id ↔ ∃ t, r.cached? a = some t ∧ falls id a t = true := by
  rw [dependents, Dict.mem_keys_iff, Option.isSome_iff_exists]
  simp only [Dict.get?_filter, Option.filter_eq_some_iff]
  rfl

theorem nodup_dependents (r : Registry) (id : DefinitionId) : (r.dependents id).Nodup :=
  Dict.nodup_keys _

theorem without_invalidate (r : Registry) (id : DefinitionId) :
    Without (r.dependents id) r (r.invalidate id) := by
  intro a
  rw [cached?_invalidate]
  cases ht : r.cached? a with
  | none => rw [Option.filter_none, ite_self]
  | some t =>
    have hmem : a ∈ r.dependents id ↔ falls id a t = true := by simp [mem_dependents, ht]
    by_cases hfalls : falls id a t = true
    · rw [if_pos (hmem.mpr hfalls)]
      simp [hfalls]
    · rw [if_neg (mt hmem.mp hfalls)]
      simp [hfalls]

theorem inherits_effective (h : Inherits r.source? a b) : Inherits r.effective? a b := by
  obtain ⟨d, hd, hb⟩ := h
  exact ⟨d, by simp [effective?, hd], hb⟩

namespace Coherent

theorem inherits_source (h : Coherent r) (ht : r.cached? a = some t)
    (hb : Inherits r.effective? a b) : Inherits r.source? a b := by
  obtain ⟨d, parents, hd, -, -⟩ := h.made ht
  obtain ⟨e, he, hb⟩ := hb
  obtain rfl : d = e := by simpa [effective?, hd] using he
  exact ⟨d, hd, hb⟩

theorem above_source_iff (h : Coherent r) (ht : r.cached? a = some t) :
    Above r.source? a id ↔ Above r.effective? a id := by
  refine ⟨Relation.ReflTransGen.mono (fun _ _ => inherits_effective) a id, ?_⟩
  intro habove
  induction habove with
  | refl => exact .refl
  | tail hab hbc ih =>
    obtain ⟨u, hu⟩ := h.cached_of_above ht hab
    exact ih.tail (h.inherits_source hu hbc)

/-- What the lineage of tables says of a definition is what the stored sources say. -/
theorem mem_dependents_iff (h : Coherent r) : a ∈ r.dependents id ↔
    (∃ t, r.cached? a = some t) ∧ Above r.source? a id := by
  have hfalls : ∀ {t}, r.cached? a = some t → (falls id a t = true ↔ Above r.source? a id) := by
    intro t ht
    rw [falls_iff, h.above_source_iff ht, above_iff, ← h.mem_lineage_iff ht, eq_comm]
  rw [mem_dependents]
  constructor
  · intro hmem
    obtain ⟨t, ht, hmem⟩ := hmem
    exact ⟨⟨t, ht⟩, (hfalls ht).mp hmem⟩
  · intro habove
    obtain ⟨⟨t, ht⟩, habove⟩ := habove
    exact ⟨t, ht, (hfalls ht).mpr habove⟩

end Coherent

/-- In every state that operations can bring about, what falls with a definition are the cached ids
from which it is reached through the ancestors that the stored sources declare, itself among them,
each named once. They leave the cache when the definition is invalidated, registered anew or
unloaded; every other table stays, and so does the source of every other id. -/
theorem invalidation_drops_dependents (policy : AmbiguityPolicy) (maxDepth : Nat)
    (loader : Option Loader) (operations : List Operation) (id : DefinitionId) :
    let r := (empty policy maxDepth loader).afterAll operations
    (r.dependents id).Nodup ∧
    (∀ a, a ∈ r.dependents id ↔ (∃ t, r.cached? a = some t) ∧ Above r.source? a id) ∧
    (Without (r.dependents id) r (r.invalidate id) ∧
      ∀ a, (r.invalidate id).source? a = r.source? a) ∧
    (∀ d : Definition, d.id = id → Without (r.dependents id) r (r.register d) ∧
      ∀ a, (r.register d).source? a = if a = id then some d else r.source? a) ∧
    Without (r.dependents id) r (r.unload id) ∧
      ∀ a, (r.unload id).source? a = if a = id then none else r.source? a := by
  intro r
  have h : Coherent r := coherent_afterAll policy maxDepth loader operations
  have hwithout := without_invalidate r id
  refine ⟨nodup_dependents r id, fun a => h.mem_dependents_iff, ⟨hwithout, fun _ => rfl⟩, ?_,
    hwithout, get?_sources_unload r id⟩
  intro d hid
  subst hid
  exact ⟨hwithout, get?_sources_register r d⟩

/-- With the thing fall all that inherit from it, with the portable only the lantern. -/
example :
    let r := ((empty .firstContributor 8 none).afterAll diamond).after (.get lantern.id)
    r.dependents thing.id = [glowing.id, lantern.id, portable.id, thing.id] ∧
      r.dependents portable.id = [lantern.id, portable.id] := by
  decide +kernel

end Mudlib.Registry
