import Mudlib.Proofs.Registry.Recasting
set_option autoImplicit false

namespace Mudlib.Registry

theorem Coherent.consistent {r : Registry} (h : Coherent r) {ids : List DefinitionId}
    {parents : List Table} (hp : List.Forall₂ (fun a p => r.cached? a = some p) ids parents) :
    Link.Consistent parents where
  tables := by
    intro p hpm q hqm hid
    obtain ⟨a, -, hap⟩ := exists_mem_of_forall₂ hp hpm
    obtain ⟨b, -, hbq⟩ := exists_mem_of_forall₂ hp hqm
    rw [h.id_eq hap, h.id_eq hbq] at hid
    rw [hid, hbq] at hap
    exact (Option.some.inj hap).symm
  fields := by
    intro p hpm q hqm name first second hfirst hsecond howner
    obtain ⟨a, -, hap⟩ := exists_mem_of_forall₂ hp hpm
    obtain ⟨b, -, hbq⟩ := exists_mem_of_forall₂ hp hqm
    exact (h.declared_of_field hap hfirst).2.eq_of_owner (h.declared_of_field hbq hsecond).2 howner
  owners := by
    intro p hpm name
    obtain ⟨a, -, hap⟩ := exists_mem_of_forall₂ hp hpm
    exact (h.gathered hap name).nodup

namespace Recast

variable {r r' : Registry} {d : Definition} {ancestors : List DefinitionId}
variable {parents parents' : List Table} {t : Table}

theorem inherits_of_perm (h : Recast d { d with ancestors := ancestors } r r')
    (hperm : d.ancestors.Perm ancestors) :
    ∀ a ∈ ancestors, Relation.TransGen (Inherits r.effective?) d.id a :=
  fun _ ha => .single ⟨d, h.source, hperm.mem_iff.mpr ha⟩

/-- Each order links against the tables that its own registry has for the ancestors. -/
theorem reordered_link (h : Recast d { d with ancestors := ancestors } r r')
    (hperm : d.ancestors.Perm ancestors)
    (hp : List.Forall₂ (fun a p => r.cached? a = some p) d.ancestors parents)
    (hp' : List.Forall₂ (fun a p => r'.cached? a = some p) ancestors parents') (stamp stamp' : Nat) :
    Link.Reordered (link stamp d parents r.policy)
      (link stamp' { d with ancestors := ancestors } parents' r.policy) := by
  obtain ⟨moved, hmoved, hparents⟩ := List.perm_comp_forall₂ hperm.symm hp
  obtain ⟨number, hnumber⟩ := Countable.exists_injective_nat DefinitionId
  have hreordered : Link.Reordered (link stamp d parents r.policy)
      (link stamp { d with ancestors := ancestors } moved r.policy) :=
    link_perm_withAncestors (h.coherent.consistent hp) hparents.symm ancestors
  -- the tables here are moved to the registry that has the sources of the other
  have hregistered := h.cached_register hmoved (h.inherits_of_perm hperm)
  have hsame := map_restamp_link (d := { d with ancestors := ancestors }) stamp stamp'
    (.refl (h.coherent.register _)) h.reached hregistered hp' hnumber
  rw [h.policy] at hsame
  exact hreordered.of_restamp hsame

theorem reordered_get (h : Recast d { d with ancestors := ancestors } r r')
    (hperm : d.ancestors.Perm ancestors) (ht : (r.get d.id).1 = .ok t) :
    ∃ t', (r'.get d.id).1 = .ok t' ∧ t.Reordered t' := by
  obtain ⟨r₁, parents, hreached, hcached, hp, hl⟩ := h.coherent.exists_linked h.source ht
  have h₁ := h.of_reached hreached (.refl h.coherent')
  obtain ⟨moved, hmoved, hparents⟩ := List.perm_comp_forall₂ hperm.symm hp
  have hreordered : Link.Reordered (link t.stamp d parents r₁.policy)
      (link t.stamp { d with ancestors := ancestors } moved r₁.policy) :=
    link_perm_withAncestors (h₁.coherent.consistent hp) hparents.symm ancestors
  rw [hl] at hreordered
  obtain ⟨u, hu, htu⟩ := hreordered.exists_ok
  have hdepth : u.depth ≤ r₁.maxDepth := htu.depth ▸ h₁.coherent.shallow hcached
  obtain ⟨t', ht', halike⟩ := h₁.get_alike hmoved (h₁.inherits_of_perm hperm) hu hdepth
  exact ⟨t', ht', htu.of_alike halike⟩

theorem resolve_of_perm (h : Recast d { d with ancestors := ancestors } r r')
    (hperm : d.ancestors.Perm ancestors) (hresolve : ∀ a ∈ d.ancestors, ∃ t, (r.get a).1 = .ok t) :
    ∀ a ∈ ancestors, ∃ t, (r'.get a).1 = .ok t := by
  intro a ha
  obtain ⟨r₁, parents, hidles, -, hp⟩ := exists_cached (.refl h.coherent) h.coherent hresolve
  have h₁ := h.of_reached ((Reached.refl h.coherent).idles hidles) (.refl h.coherent')
  obtain ⟨p, -, hap⟩ := exists_mem_of_forall₂ hp.flip (hperm.mem_iff.mpr ha)
  have hkept := h₁.coherent.cached?_register (d := { d with ancestors := ancestors }) hap
    (h₁.coherent.not_above hap (h₁.inherits_of_perm hperm a ha))
  refine ((h₁.reached.agrees (h₁.coherent.register _)).succeeds a).mpr ⟨p, ?_⟩
  rw [get, resolveWithin_cached _ hkept]

end Recast

/-- A definition whose ancestors all resolve stands in two registries, with its ancestors in another
order in the second; else both have the same sources. Linked against the tables of its ancestors, it
links in both or in neither. If it does not, the error is of one kind and, unless it is a clash of
fields, about the same field or method; if it does, the tables have the same fields, the same depth
and the same methods, by implementations of the same owners, and the same ids in their lineage and
among their auxiliaries. It resolves in both or in neither, to tables that differ in order alone. -/
theorem order_of_ancestors_is_order_alone (policy : AmbiguityPolicy) (maxDepth : Nat)
    {loader loader' : Option Loader} {operations operations' : List Operation} {r r' : Registry}
    {d : Definition} {ancestors : List DefinitionId}
    (hr : r = (empty policy maxDepth loader).afterAll operations)
    (hr' : r' = (empty policy maxDepth loader').afterAll operations')
    (hperm : d.ancestors.Perm ancestors) (hd : r.effective? d.id = some d)
    (hsources : ∀ a, r'.effective? a =
      if a = d.id then some { d with ancestors := ancestors } else r.effective? a)
    (hresolve : ∀ a ∈ d.ancestors, ∃ t, (r.get a).1 = .ok t) :
    (∃ r₁ r₁' parents parents', Idles r r₁ ∧ Idles r' r₁' ∧
      List.Forall₂ (fun a p => r₁.cached? a = some p) d.ancestors parents ∧
      List.Forall₂ (fun a p => r₁'.cached? a = some p) ancestors parents') ∧
    (∀ r₁ r₁' parents parents' stamp stamp', Idles r r₁ → Idles r' r₁' →
      List.Forall₂ (fun a p => r₁.cached? a = some p) d.ancestors parents →
      List.Forall₂ (fun a p => r₁'.cached? a = some p) ancestors parents' →
      Link.Reordered (link stamp d parents policy)
        (link stamp' { d with ancestors := ancestors } parents' policy)) ∧
    ((∃ t, (r.get d.id).1 = .ok t) ↔ ∃ t', (r'.get d.id).1 = .ok t') ∧
    ∀ t t', (r.get d.id).1 = .ok t → (r'.get d.id).1 = .ok t' → t.Reordered t' := by
  have h : Recast d { d with ancestors := ancestors } r r' := .of_sources hr hr' hd rfl hsources
  have hc := h.coherent
  have hc' := h.coherent'
  have hpolicy : r.policy = policy := by
    have hsame := sameSettings_afterAll (coherent_empty policy maxDepth loader) operations
    rw [← hr] at hsame
    exact hsame.policy
  refine ⟨?_, ?_, ?_, ?_⟩
  · obtain ⟨r₁, parents, hidles, -, hp⟩ := exists_cached (.refl hc) hc hresolve
    obtain ⟨r₁', parents', hidles', -, hp'⟩ :=
      exists_cached (.refl hc') hc' (h.resolve_of_perm hperm hresolve)
    exact ⟨r₁, r₁', parents, parents', hidles, hidles', hp, hp'⟩
  · intro r₁ r₁' parents parents' stamp stamp' hidles hidles' hp hp'
    have hreached := (Reached.refl hc).idles hidles
    have hlink := (h.of_reached hreached ((Reached.refl hc').idles hidles')).reordered_link
      hperm hp hp' stamp stamp'
    rwa [hreached.policy, hpolicy] at hlink
  · constructor
    · intro hok
      obtain ⟨t, ht⟩ := hok
      obtain ⟨t', ht', -⟩ := h.reordered_get hperm ht
      exact ⟨t', ht'⟩
    · intro hok
      obtain ⟨t', ht'⟩ := hok
      obtain ⟨t, ht, -⟩ := h.symm.reordered_get hperm.symm ht'
      exact ⟨t, ht⟩
  · intro t t' ht ht'
    obtain ⟨u, hu, hreordered⟩ := h.reordered_get hperm ht
    rw [ht'] at hu
    exact Except.ok.inj hu ▸ hreordered

section Swapping

def lanternSwapped : Definition := { lantern with ancestors := [glowing.id, portable.id] }

/-- With its ancestors swapped, the lantern has the same methods and fields, but it looks as a glowing
thing does. -/
theorem lantern_swapped_looks_otherwise :
    let r := (empty .firstContributor 8 none).afterAll diamond
    ∃ t t', (r.get lantern.id).1 = .ok t ∧ ((r.register lanternSwapped).get lantern.id).1 = .ok t' ∧
      t.Reordered t' ∧ (t.method? "look").map Implementation.owner = some thing.id ∧
      (t'.method? "look").map Implementation.owner = some glowing.id := by
  intro r
  have hresolve : ∀ a ∈ lantern.ancestors, ∃ t, (r.get a).1 = .ok t := by
    have hrun : ∀ a ∈ lantern.ancestors, (r.get a).1.toOption.isSome = true := by decide +kernel
    intro a ha
    obtain ⟨t, ht⟩ := Option.isSome_iff_exists.mp (hrun a ha)
    exact ⟨t, eq_ok_of_toOption ht⟩
  have hr : r = (empty .firstContributor 8 none).afterAll diamond := rfl
  have hswapped : r.register lanternSwapped =
      (empty .firstContributor 8 none).afterAll (diamond ++ [.register lanternSwapped]) := rfl
  have hsources : ∀ a, (r.register lanternSwapped).effective? a = if a = lantern.id then
      some { lantern with ancestors := [glowing.id, portable.id] } else r.effective? a :=
    effective?_register r lanternSwapped
  obtain ⟨-, -, -, hreordered⟩ := order_of_ancestors_is_order_alone .firstContributor 8 hr hswapped
    (.swap glowing.id portable.id []) rfl hsources hresolve
  have hrun : ((r.get lantern.id).1.toOption.bind fun t =>
        (t.method? "look").map Implementation.owner) = some thing.id ∧
      (((r.register lanternSwapped).get lantern.id).1.toOption.bind fun t =>
        (t.method? "look").map Implementation.owner) = some glowing.id := by
    decide +kernel
  obtain ⟨hlook, hlook'⟩ := hrun
  obtain ⟨t, ht, hlook⟩ := Option.bind_eq_some_iff.mp hlook
  obtain ⟨t', ht', hlook'⟩ := Option.bind_eq_some_iff.mp hlook'
  have ht := eq_ok_of_toOption ht
  have ht' := eq_ok_of_toOption ht'
  exact ⟨t, t', ht, ht', hreordered t t' ht ht', hlook, hlook'⟩

end Swapping

end Mudlib.Registry
