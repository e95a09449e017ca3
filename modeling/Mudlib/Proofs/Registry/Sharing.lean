import Mudlib.Proofs.Registry.Operations
set_option autoImplicit false

namespace Mudlib.Registry

def Shows (r : Registry) (id : DefinitionId) (name : String) (m : Implementation) : Prop :=
  ∃ t slot, r.cached? id = some t ∧ t.methods.get? name = some slot ∧ m ∈ slot.implementations

/-- The owner of an implementation has it in its own cached table, which was linked when the
implementation was made. -/
def OwnedAt (r : Registry) (name : String) (m : Implementation) : Prop :=
  ∃ own slot, r.cached? m.owner = some own ∧ m.stamp = own.stamp ∧
    own.methods.get? name = some slot ∧ slot.fromOwner? m.owner = some m

namespace Coherent

variable {r : Registry} {id id' : DefinitionId} {t : Table} {name : String}
variable {m m' : Implementation}

theorem owner_of_shown (h : Coherent r) (ht : r.cached? id = some t) (hs : r.Shows id name m) :
    m.owner = id ∨ m.owner ∈ t.lineage := by
  revert hs
  refine h.of_parents (P := fun id t => r.Shows id name m → m.owner = id ∨ m.owner ∈ t.lineage) ?_ ht
  intro id t d parents ht _ hid hp hl ih hs
  obtain ⟨u, slot, hu, hslot, hm⟩ := hs
  obtain rfl : t = u := Option.some.inj (ht.symm.trans hu)
  rcases mem_methods_of_link hl hslot hm with ⟨p, hmem, s, hps, hm⟩ | ⟨decl, -, hm⟩
  · obtain ⟨a, -, hap⟩ := exists_mem_of_forall₂ hp hmem
    have howner := ih a p hmem hap ⟨p, s, hap, hps, hm⟩
    rw [← h.id_eq hap] at howner
    exact .inr (lineage_of_link hl ▸ Link.mem_lineageOf.mpr ⟨p, hmem, howner⟩)
  · obtain ⟨calls, -, rfl⟩ := Link.linkMethod_eq_ok.mp hm
    exact .inl hid

theorem fromOwner?_local {d : Definition} {parents : List Table} (h : Coherent r)
    (ht : r.cached? d.id = some t)
    (hp : List.Forall₂ (fun a p => r.cached? a = some p) d.ancestors parents)
    (hl : link t.stamp d parents r.policy = .ok t) (howner : m.owner = d.id) :
    (Link.localSlot ((Link.inheritedMethods parents).get? name) m).fromOwner? d.id = some m := by
  have hinherited : ∀ s, (Link.inheritedMethods parents).get? name = some s →
      ∀ n ∈ s.implementations, n.owner ≠ d.id := by
    intro s hs n hn heq
    obtain ⟨p, hmem, ps, hps, hn⟩ := Link.mem_inheritedMethods hs hn
    obtain ⟨a, -, hap⟩ := exists_mem_of_forall₂ hp hmem
    have hn := h.owner_of_shown hap ⟨p, ps, hap, hps, hn⟩
    rw [heq, ← h.id_eq hap] at hn
    apply h.not_mem_lineage ht
    exact lineage_of_link hl ▸ Link.mem_lineageOf.mpr ⟨p, hmem, hn⟩
  cases hi : (Link.inheritedMethods parents).get? name with
  | none => simp [Link.localSlot, MethodSlot.fromOwner?, howner]
  | some s =>
    have hnone : s.implementations.find? (fun n => n.owner = d.id) = none := by
      simpa using hinherited s hi
    simp [Link.localSlot, MethodSlot.fromOwner?, List.find?_append, hnone, howner]

theorem own_of_shown (h : Coherent r) (hs : r.Shows id name m) : r.OwnedAt name m := by
  obtain ⟨t, slot, ht, hslot, hm⟩ := hs
  revert slot
  refine h.of_parents (P := fun _ t => ∀ slot, t.methods.get? name = some slot →
    m ∈ slot.implementations → r.OwnedAt name m) ?_ ht
  intro id t d parents ht _ hid hp hl ih slot hslot hm
  have inherited : ∀ {s}, (Link.inheritedMethods parents).get? name = some s →
      m ∈ s.implementations → r.OwnedAt name m := by
    intro s hs hm
    obtain ⟨p, hmem, ps, hps, hm⟩ := Link.mem_inheritedMethods hs hm
    obtain ⟨a, -, hap⟩ := exists_mem_of_forall₂ hp hmem
    exact ih a p hmem hap ps hps hm
  rcases get?_methods_of_link hl name with ⟨-, heq⟩ | ⟨decl, own, -, hown, heq⟩
  · exact inherited (heq ▸ hslot) hm
  · obtain rfl : Link.localSlot ((Link.inheritedMethods parents).get? name) own = slot :=
      Option.some.inj (heq.symm.trans hslot)
    rcases List.mem_append.mp hm with hm | hm
    · cases hi : (Link.inheritedMethods parents).get? name with
      | none => simp [hi] at hm
      | some s => exact inherited hi (by simpa [hi] using hm)
    · obtain rfl := List.mem_singleton.mp hm
      subst hid
      obtain ⟨calls, -, hmk⟩ := Link.linkMethod_eq_ok.mp hown
      have howner : m.owner = d.id := by rw [hmk]; rfl
      refine ⟨t, _, howner ▸ ht, by rw [hmk]; rfl, hslot, ?_⟩
      rw [howner]
      exact h.fromOwner?_local ht hp hl howner

theorem eq_of_owner_eq (h : Coherent r) (hs : r.Shows id name m) (hs' : r.Shows id' name m')
    (howner : m.owner = m'.owner) : m = m' := by
  obtain ⟨own, slot, hown, -, hslot, hfind⟩ := h.own_of_shown hs
  obtain ⟨own', slot', hown', -, hslot', hfind'⟩ := h.own_of_shown hs'
  rw [howner] at hown hfind
  obtain rfl := Option.some.inj (hown.symm.trans hown')
  obtain rfl := Option.some.inj (hslot.symm.trans hslot')
  exact Option.some.inj (hfind.symm.trans hfind')

theorem same_iff (h : Coherent r) (hs : r.Shows id name m) (hs' : r.Shows id' name m') :
    m.same m' = true ↔ m.owner = m'.owner := by
  constructor
  · intro hsame
    obtain ⟨own, -, hown, hstamp, -, -⟩ := h.own_of_shown hs
    obtain ⟨own', -, hown', hstamp', -, -⟩ := h.own_of_shown hs'
    have heq : m.stamp = m'.stamp := by simp [Implementation.same] at hsame; exact hsame.1
    exact h.apart hown hown' (by rw [← hstamp, ← hstamp', heq])
  · intro howner
    rw [h.eq_of_owner_eq hs hs' howner]
    simp [Implementation.same]

end Coherent

variable (policy : AmbiguityPolicy) (maxDepth : Nat) (loader : Option Loader)

theorem coherent_afterAll (operations : List Operation) :
    Coherent ((empty policy maxDepth loader).afterAll operations) :=
  (coherent_empty policy maxDepth loader).afterAll operations

/-- In every state that operations can bring about, each cached table is what its stored source
links to against the cached tables of its ancestors, and the implementations of a name by one owner
are one object wherever they are shown, the one in the owner's own cached table. -/
theorem cache_shows_sources (operations : List Operation) :
    let r := (empty policy maxDepth loader).afterAll operations
    (∀ id t, r.cached? id = some t → ∃ d parents, r.source? id = some d ∧
      List.Forall₂ (fun a p => r.cached? a = some p) d.ancestors parents ∧
      link t.stamp d parents policy = .ok t) ∧
    (∀ id name m, r.Shows id name m → ∃ own slot, r.cached? m.owner = some own ∧
      own.methods.get? name = some slot ∧ slot.fromOwner? m.owner = some m) ∧
    ∀ id id' name m m', r.Shows id name m → r.Shows id' name m' →
      (m.same m' = true ↔ m.owner = m'.owner) ∧ (m.owner = m'.owner → m = m') := by
  intro r
  have hc : Coherent r := coherent_afterAll policy maxDepth loader operations
  have hpolicy : r.policy = policy :=
    (sameSettings_afterAll (coherent_empty policy maxDepth loader) operations).policy
  refine ⟨?_, ?_, ?_⟩
  · intro id t ht
    obtain ⟨d, parents, hd, hp, hl⟩ := hc.made ht
    exact ⟨d, parents, hd, hp, hpolicy ▸ hl⟩
  · intro id name m hs
    obtain ⟨own, slot, hown, -, hslot, hfind⟩ := hc.own_of_shown hs
    exact ⟨own, slot, hown, hslot, hfind⟩
  · intro id id' name m m' hs hs'
    exact ⟨hc.same_iff hs hs', hc.eq_of_owner_eq hs hs'⟩

end Mudlib.Registry
