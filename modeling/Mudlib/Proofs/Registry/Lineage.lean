import Mudlib.Proofs.Registry.Contributions
/-!
The ancestry that a resolved table shows: its lineage is what a walk up from its definition meets,
depth first, each ancestor at its first place, and its depth is the length of the longest chain.

The walk goes through the unfolded graph of ancestors, where an ancestor is met again on every way
that leads to it. Linking never goes that way. It unites the lineages of the direct ancestors, from
which repetitions are gone already, and comes to the same because a union does not see repetitions.
-/
set_option autoImplicit false

namespace Mudlib

namespace Link

variable {id : DefinitionId} {ids more rest : List DefinitionId}

theorem union_append : union ids (more ++ rest) = union (union ids more) rest := List.foldl_append

theorem eraseDups_concat : (ids ++ [id]).eraseDups = addNew ids.eraseDups id := by
  rw [List.eraseDups_append, addNew]
  by_cases hmem : id ∈ ids
  · simp [List.removeAll, hmem]
  · simp [List.removeAll, hmem, List.eraseDups_cons]

theorem union_eraseDups : union ids more.eraseDups = union ids more := by
  induction more using List.reverseRecOn with
  | nil => rfl
  | append_singleton more id ih =>
    have hconcat : union ids (more ++ [id]) = addNew (union ids more) id := union_append
    rw [eraseDups_concat, hconcat, addNew]
    split
    next hmem =>
      have hin : id ∈ union ids more := mem_union.mpr (.inr (List.mem_eraseDups.mp hmem))
      rw [ih, addNew, if_pos hin]
    next =>
      rw [union_append, ih]
      rfl

theorem union_nil_eq_eraseDups : union [] more = more.eraseDups := by
  induction more using List.reverseRecOn with
  | nil => rfl
  | append_singleton more id ih =>
    rw [eraseDups_concat, ← ih]
    exact union_append

theorem nodup_lineageOf (parents : List Table) : (lineageOf parents).Nodup :=
  nodup_foldl_union List.nodup_nil

end Link

namespace Registry

/-- A walk up from some ids: each of them in front of all that is met above it, ancestors in the
order in which they are declared. What is reached in several ways is met as often. -/
inductive Climb (sources : DefinitionId → Option Definition) :
    List DefinitionId → List DefinitionId → Prop where
  | nil : Climb sources [] []
  | cons {id : DefinitionId} {d : Definition} {ids above rest : List DefinitionId} :
      sources id = some d → Climb sources d.ancestors above → Climb sources ids rest →
      Climb sources (id :: ids) (id :: (above ++ rest))

/-- What a table shows of the ancestry of its definition is what the sources say. -/
structure Genealogy (sources : DefinitionId → Option Definition) (maxDepth : Nat)
    (id : DefinitionId) (t : Table) : Prop where
  id_eq : t.id = id
  walked : ∃ walk, Climb sources [id] (id :: walk)
  lineage_eq : ∀ walk, Climb sources [id] (id :: walk) → t.lineage = walk.eraseDups
  nodup : t.lineage.Nodup
  not_mem : t.id ∉ t.lineage
  isA_iff : ∀ a, t.isA a = true ↔ a = t.id ∨ Relation.TransGen (Inherits sources) t.id a
  attained : ∃ path, List.IsChain (Inherits sources) (id :: path) ∧ path.length = t.depth
  longest : ∀ path, List.IsChain (Inherits sources) (id :: path) → path.length ≤ t.depth
  shallow : t.depth ≤ maxDepth

variable {sources : DefinitionId → Option Definition} {ids walk walk' : List DefinitionId}

theorem Climb.unique (h : Climb sources ids walk) (h' : Climb sources ids walk') : walk = walk' := by
  induction h generalizing walk' with
  | nil =>
    cases h'
    rfl
  | cons hd _ _ ihabove ihrest =>
    cases h' with
    | cons hd' habove' hrest' =>
      obtain rfl := Option.some.inj (hd.symm.trans hd')
      rw [ihabove habove', ihrest hrest']

/-- Where the lineage of each table is a walk without its repetitions, that of all together is. -/
theorem climb_of_parents {parents : List Table} {R : DefinitionId → Table → Prop}
    (hp : List.Forall₂ R ids parents)
    (heach : ∀ a, ∀ p ∈ parents, R a p → p.id = a ∧ ∃ d above, sources a = some d ∧
      Climb sources d.ancestors above ∧ p.lineage = above.eraseDups) :
    ∃ walk, Climb sources ids walk ∧ Link.lineageOf parents = walk.eraseDups := by
  suffices hg : ∃ walk, Climb sources ids walk ∧ ∀ acc,
      parents.foldl (fun acc p => Link.union acc (p.id :: p.lineage)) acc = Link.union acc walk by
    obtain ⟨walk, hwalk, hfold⟩ := hg
    exact ⟨walk, hwalk, (hfold []).trans Link.union_nil_eq_eraseDups⟩
  induction hp with
  | nil => exact ⟨[], .nil, fun _ => rfl⟩
  | @cons a p ids parents hap _ ih =>
    obtain ⟨hid, d, above, hd, habove, hlineage⟩ := heach a p List.mem_cons_self hap
    obtain ⟨rest, hrest, hfold⟩ := ih fun b q hq => heach b q (List.mem_cons_of_mem _ hq)
    refine ⟨a :: (above ++ rest), .cons hd habove hrest, fun acc => ?_⟩
    have hone : Link.union acc (p.id :: p.lineage) = Link.union acc (a :: above) := by
      rw [hid, hlineage]
      exact Link.union_eraseDups
    rw [List.foldl_cons, hfold, hone, ← Link.union_append, List.cons_append]

namespace Coherent

variable {r : Registry} {id : DefinitionId} {t : Table}

theorem exists_climb (h : Coherent r) (ht : r.cached? id = some t) :
    ∃ d above, r.effective? id = some d ∧ Climb r.effective? d.ancestors above ∧
      t.lineage = above.eraseDups := by
  refine h.of_parents (P := fun id t => ∃ d above, r.effective? id = some d ∧
    Climb r.effective? d.ancestors above ∧ t.lineage = above.eraseDups) ?_ ht
  intro id t d parents _ hd _ hp hl ih
  obtain ⟨above, habove, hlineage⟩ :=
    climb_of_parents hp fun a p hmem hap => ⟨h.id_eq hap, ih a p hmem hap⟩
  exact ⟨d, above, hd, habove, (lineage_of_link hl).trans hlineage⟩

theorem nodup_lineage (h : Coherent r) (ht : r.cached? id = some t) : t.lineage.Nodup := by
  obtain ⟨d, parents, -, -, hl⟩ := h.made ht
  rw [lineage_of_link hl]
  exact Link.nodup_lineageOf parents

theorem isA_iff (h : Coherent r) (ht : r.cached? id = some t) (a : DefinitionId) :
    t.isA a = true ↔ a = t.id ∨ Relation.TransGen (Inherits r.effective?) t.id a := by
  rw [h.id_eq ht, ← h.mem_lineage_iff ht, @eq_comm _ a id]
  simp [Table.isA, h.id_eq ht]

theorem genealogy (h : Coherent r) (ht : r.cached? id = some t) :
    Genealogy r.effective? r.maxDepth id t where
  id_eq := h.id_eq ht
  walked := by
    obtain ⟨d, above, hd, habove, -⟩ := h.exists_climb ht
    exact ⟨above ++ [], .cons hd habove .nil⟩
  lineage_eq := by
    intro walk hwalk
    obtain ⟨d, above, hd, habove, hlineage⟩ := h.exists_climb ht
    have hsame := (Climb.cons hd habove .nil).unique hwalk
    rw [List.append_nil] at hsame
    rw [hlineage, (List.cons.inj hsame).2]
  nodup := h.nodup_lineage ht
  not_mem := by
    rw [h.id_eq ht]
    exact h.not_mem_lineage ht
  isA_iff := h.isA_iff ht
  attained := h.exists_chain ht
  longest := fun _ hpath => h.length_le_depth ht hpath
  shallow := h.shallow ht

end Coherent

/-- Every table that a registry has resolved shows the ancestry that the sources declare. Its lineage
is the walk up from its definition, depth first in the order of declaration, each ancestor where it
is met first, and neither the definition itself nor anything twice; it is the kind of what it is or
is reached from it through ancestors, and of nothing else; its depth is the length of the longest
chain above it, and within the limit. -/
theorem lineage_is_first_met_above (policy : AmbiguityPolicy) (maxDepth : Nat)
    (loader : Option Loader) (operations : List Operation) :
    let r := (empty policy maxDepth loader).afterAll operations
    (∀ id t, r.cached? id = some t → Genealogy r.effective? maxDepth id t) ∧
    (∀ id t, (r.get id).1 = .ok t → Genealogy r.effective? maxDepth id t) ∧
    ∀ d t, (r.compile d).1 = .ok t → Genealogy (r.after (.compile d)).effective? maxDepth d.id t := by
  intro r
  have hc : Coherent r := coherent_afterAll policy maxDepth loader operations
  have hdepth : r.maxDepth = maxDepth :=
    (sameSettings_afterAll (coherent_empty policy maxDepth loader) operations).maxDepth
  refine ⟨fun id t ht => hdepth ▸ hc.genealogy ht, ?_, ?_⟩
  · intro id t ht
    have hresolved := resolved_get hc id
    have hgenealogy := (hc.get id).genealogy (hresolved.found t ht)
    rwa [funext hresolved.walk.grows.effective, hresolved.walk.grows.maxDepth, hdepth] at hgenealogy
  · intro d t ht
    have hsettings := sameSettings_after hc (.compile d)
    have hgenealogy := (hc.after (.compile d)).genealogy (hc.cached?_compile ht)
    rwa [hsettings.maxDepth, hdepth] at hgenealogy

/-- The thing is met above the portable first, and above the glowing again. -/
example : ((((empty .firstContributor 8 none).afterAll diamond).get lantern.id).1.map fun t =>
    (t.lineage, t.depth)) = .ok ([portable.id, thing.id, glowing.id], 2) := by
  decide +kernel

end Registry

end Mudlib
