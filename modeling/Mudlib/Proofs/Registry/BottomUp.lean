import Mathlib.Data.List.Chain
import Mudlib.Proofs.Link.Restamp
import Mudlib.Proofs.Registry.Sharing
set_option autoImplicit false

namespace Mudlib.Registry

/-- The ids that are reached from one through the ancestors declared, itself among them. -/
abbrev Above (sources : DefinitionId → Option Definition) : DefinitionId → DefinitionId → Prop :=
  Relation.ReflTransGen (Inherits sources)

/-- A table for each id above one: what its source links to against the tables of its ancestors. No
two ids share a linking. -/
structure BottomUp (sources : DefinitionId → Option Definition) (policy : AmbiguityPolicy)
    (id : DefinitionId) (tables : DefinitionId → Table) : Prop where
  linked : ∀ {a}, Above sources id a → ∃ d, sources a = some d ∧
    link (tables a).stamp d (d.ancestors.map tables) policy = .ok (tables a)
  apart : ∀ {a b}, Above sources id a → Above sources id b →
    (tables a).stamp = (tables b).stamp → a = b

/-- What must hold of the sources above an id so that it has a table. -/
structure Resolvable (sources : DefinitionId → Option Definition) (policy : AmbiguityPolicy)
    (maxDepth : Nat) (id : DefinitionId) : Prop where
  sourced : ∀ {a}, Above sources id a → ∃ d, sources a = some d ∧ d.id = a
  acyclic : ∀ {a}, Above sources id a → ¬ Relation.TransGen (Inherits sources) a a
  shallow : ∀ {path}, List.IsChain (Inherits sources) (id :: path) → path.length ≤ maxDepth
  linkable : ∃ tables, BottomUp sources policy id tables

variable {sources : DefinitionId → Option Definition} {policy : AmbiguityPolicy}
variable {id a b : DefinitionId} {tables : DefinitionId → Table}

theorem BottomUp.of_above (h : BottomUp sources policy id tables) (ha : Above sources id a) :
    BottomUp sources policy a tables :=
  ⟨fun hb => h.linked (ha.trans hb), fun hb hc => h.apart (ha.trans hb) (ha.trans hc)⟩

namespace Resolvable

variable {n : Nat}

theorem of_inherits (h : Resolvable sources policy (n + 1) id) (ha : Inherits sources id a) :
    Resolvable sources policy n a where
  sourced := fun hb => h.sourced (.head ha hb)
  acyclic := fun hb => h.acyclic (.head ha hb)
  shallow := by
    intro path hpath
    have hlong := h.shallow (.cons_cons ha hpath)
    simp only [List.length_cons] at hlong
    omega
  linkable := by
    obtain ⟨tables, ht⟩ := h.linkable
    exact ⟨tables, ht.of_above (.single ha)⟩

theorem not_inherits (h : Resolvable sources policy 0 id) : ¬ Inherits sources id a := by
  intro ha
  have hlong := h.shallow (.cons_cons ha (.singleton a))
  simp at hlong

end Resolvable

namespace Coherent

variable {r : Registry} {t : Table} {d : Definition}

theorem cached_of_above (h : Coherent r) (ht : r.cached? id = some t)
    (ha : Above r.effective? id a) : ∃ u, r.cached? a = some u := by
  rcases Relation.reflTransGen_iff_eq_or_transGen.mp ha with rfl | ha
  · exact ⟨t, ht⟩
  · obtain ⟨u, hu, -⟩ := h.cached_of_inherits_many ht ha
    exact ⟨u, hu⟩

theorem length_le_depth (h : Coherent r) (ht : r.cached? id = some t) {path : List DefinitionId}
    (hpath : List.IsChain (Inherits r.effective?) (id :: path)) : path.length ≤ t.depth := by
  induction path generalizing id t with
  | nil => exact Nat.zero_le _
  | cons a path ih =>
    obtain ⟨ha, hpath⟩ := List.isChain_cons_cons.mp hpath
    obtain ⟨u, hu, hut⟩ := h.cached_of_inherits ht ha
    exact Nat.lt_of_le_of_lt (ih hu hpath) hut

theorem exists_chain_of_parents {parents : List Table} (hd : r.effective? id = some d)
    (hp : List.Forall₂ (fun a p => r.cached? a = some p) d.ancestors parents)
    (hchain : ∀ a, ∀ p ∈ parents, r.cached? a = some p →
      ∃ path, List.IsChain (Inherits r.effective?) (a :: path) ∧ path.length = p.depth) :
    ∃ path, List.IsChain (Inherits r.effective?) (id :: path) ∧
      path.length = Link.depthOf parents := by
  rcases Link.depthOf_attained parents with rfl | ⟨p, hmem, hdepth⟩
  · exact ⟨[], .singleton id, rfl⟩
  · obtain ⟨a, ha, hap⟩ := exists_mem_of_forall₂ hp hmem
    obtain ⟨path, hpath, hlength⟩ := hchain a p hmem hap
    refine ⟨a :: path, .cons_cons ⟨d, hd, ha⟩ hpath, ?_⟩
    rw [List.length_cons, hlength, hdepth]

theorem exists_chain (h : Coherent r) (ht : r.cached? id = some t) :
    ∃ path, List.IsChain (Inherits r.effective?) (id :: path) ∧ path.length = t.depth := by
  refine h.of_parents (P := fun id t => ∃ path,
    List.IsChain (Inherits r.effective?) (id :: path) ∧ path.length = t.depth) ?_ ht
  intro id t d parents _ hd _ hp hl ih
  rw [depth_of_link hl]
  exact exists_chain_of_parents hd hp ih

theorem resolvable_of_cached (h : Coherent r) (ht : r.cached? id = some t) :
    Resolvable r.effective? r.policy r.maxDepth id where
  sourced := by
    intro a ha
    obtain ⟨u, hu⟩ := h.cached_of_above ht ha
    obtain ⟨d, -, hd, hid, -, -⟩ := h.effective_of_cached hu
    exact ⟨d, hd, hid⟩
  acyclic := by
    intro a ha hcycle
    obtain ⟨u, hu⟩ := h.cached_of_above ht ha
    obtain ⟨v, hv, hlt⟩ := h.cached_of_inherits_many hu hcycle
    obtain rfl := Option.some.inj (hu.symm.trans hv)
    exact Nat.lt_irrefl _ hlt
  shallow := fun hpath => Nat.le_trans (h.length_le_depth ht hpath) (h.shallow ht)
  linkable := by
    refine ⟨fun a => (r.cached? a).getD t, ?_, ?_⟩
    · intro a ha
      obtain ⟨u, hu⟩ := h.cached_of_above ht ha
      obtain ⟨d, parents, hd, -, hp, hl⟩ := h.effective_of_cached hu
      have hparents : d.ancestors.map (fun a => (r.cached? a).getD t) = parents.map fun p => p := by
        refine map_eq_map_of_forall₂ hp ?_
        intro a _ p _ hap
        rw [hap, Option.getD_some]
      rw [List.map_id'] at hparents
      refine ⟨d, hd, ?_⟩
      simpa only [hparents, hu, Option.getD_some] using hl
    · intro a b ha hb heq
      obtain ⟨u, hu⟩ := h.cached_of_above ht ha
      obtain ⟨v, hv⟩ := h.cached_of_above ht hb
      simp only [hu, hv, Option.getD_some] at heq
      exact h.apart hu hv heq

theorem above_owner (h : Coherent r) {name : String} {m : Implementation}
    (hs : r.Shows id name m) : Above r.effective? id m.owner := by
  obtain ⟨t, slot, ht, hslot, hm⟩ := hs
  rcases h.owner_of_shown ht ⟨t, slot, ht, hslot, hm⟩ with heq | hmem
  · rw [heq]
  · exact (h.inherits_of_mem_lineage ht hmem).to_reflTransGen

/-- Linkings made bottom-up tell implementations apart just as the cache does. -/
theorem discerns (h : Coherent r) (hb : BottomUp r.effective? r.policy id tables)
    (hd : r.effective? id = some d) {parents : List Table}
    (hp : List.Forall₂ (fun a p => r.cached? a = some p) d.ancestors parents) :
    Link.Discerns (fun a => (tables a).stamp) parents := by
  have shown : ∀ p ∈ parents, ∀ name m, p.method? name = some m →
      ∃ a, r.Shows a name m ∧ Above r.effective? id m.owner := by
    intro p hmem name m hm
    obtain ⟨a, ha, hap⟩ := exists_mem_of_forall₂ hp hmem
    obtain ⟨slot, hslot, hm⟩ := Link.method?_eq_some hm
    have hs : r.Shows a name m := ⟨p, slot, hap, hslot, hm⟩
    exact ⟨a, hs, .head ⟨d, hd, ha⟩ (h.above_owner hs)⟩
  intro p hp q hq name m m' hm hm'
  obtain ⟨a, hs, habove⟩ := shown p hp name m hm
  obtain ⟨a', hs', habove'⟩ := shown q hq name m' hm'
  rw [Bool.eq_iff_iff, h.same_iff hs hs']
  constructor
  · intro hsame
    simp only [Implementation.same, Implementation.stamp_restamp, Bool.and_eq_true,
      beq_iff_eq] at hsame
    exact hb.apart habove habove' hsame.1
  · intro howner
    rw [h.eq_of_owner_eq hs hs' howner]
    simp [Implementation.same]

theorem link_bottomUp (h : Coherent r) (hb : BottomUp r.effective? r.policy id tables)
    (hd : r.effective? id = some d) (hid : d.id = id) {parents : List Table}
    (hp : List.Forall₂ (fun a p => r.cached? a = some p) d.ancestors parents)
    (heq : ∀ a, ∀ p ∈ parents, r.cached? a = some p → a ∈ d.ancestors →
      tables a = p.restamp fun b => (tables b).stamp) (stamp : Nat) :
    (link stamp d parents r.policy).map (Table.restamp fun b => (tables b).stamp) =
      .ok (tables id) := by
  obtain ⟨e, he, hl⟩ := hb.linked .refl
  obtain rfl : d = e := Option.some.inj (hd.symm.trans he)
  have hparents : d.ancestors.map tables =
      parents.map (Table.restamp fun b => (tables b).stamp) :=
    map_eq_map_of_forall₂ hp fun a ha p hmem hap => heq a p hmem hap ha
  rw [← link_restamp _ (h.discerns hb hd hp), ← hparents, hid]
  exact hl

theorem bottomUp_eq (h : Coherent r) (hb : BottomUp r.effective? r.policy id tables)
    (ht : r.cached? id = some t) : tables id = t.restamp fun b => (tables b).stamp := by
  revert hb
  refine h.of_parents (P := fun id t => BottomUp r.effective? r.policy id tables →
    tables id = t.restamp fun b => (tables b).stamp) ?_ ht
  intro id t d parents _ hd hid hp hl ih hb
  have heq : ∀ a, ∀ p ∈ parents, r.cached? a = some p → a ∈ d.ancestors →
      tables a = p.restamp fun b => (tables b).stamp :=
    fun a p hmem hap ha => ih a p hmem hap (hb.of_above (.single ⟨d, hd, ha⟩))
  have hlink := h.link_bottomUp hb hd hid hp heq t.stamp
  rw [hl] at hlink
  exact (Except.ok.inj hlink).symm

end Coherent

end Mudlib.Registry
