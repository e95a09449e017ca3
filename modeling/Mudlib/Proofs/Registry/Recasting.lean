import Mudlib.Proofs.Registry.Contributions
import Mudlib.Proofs.Registry.Fields
import Mudlib.Proofs.Registry.Histories
import Mudlib.Proofs.Link.Order
set_option autoImplicit false

namespace Mudlib.Registry

/-- The registries have the settings and the sources of each other, except that a definition of the
first stands as another one of its id in the second. -/
structure Recast (d d' : Definition) (r r' : Registry) : Prop where
  coherent : Coherent r
  coherent' : Coherent r'
  id : d'.id = d.id
  source : r.effective? d.id = some d
  source' : r'.effective? d.id = some d'
  others : ∀ a, a ≠ d.id → r'.effective? a = r.effective? a
  policy : r'.policy = r.policy
  maxDepth : r'.maxDepth = r.maxDepth

section Cached

variable {visiting ids : List DefinitionId} {id a : DefinitionId} {r r₀ r₁ : Registry}
variable {d : Definition} {parents : List Table} {t p : Table}

theorem resolveEach_cached (room : Nat)
    (hp : List.Forall₂ (fun a p => r.cached? a = some p) ids parents) :
    resolveEach (resolveWithin room visiting) ids r = (.ok parents, r) := by
  induction hp with
  | nil => rfl
  | cons hap _ ih => simp only [resolveEach, resolveWithin_cached room hap, ih]

theorem get_of_cached_parents (hs : r.source? d.id = some d) (hn : r.cached? d.id = none)
    (hp : List.Forall₂ (fun a p => r.cached? a = some p) d.ancestors parents)
    (hl : link r.linked d parents r.policy = .ok t) (hdepth : t.depth ≤ r.maxDepth) :
    (r.get d.id).1 = .ok t := by
  have hload : r.loadSource d.id = (.ok d, r) := by simp only [loadSource, hs]
  simp only [get, resolveWithin, hn, List.not_mem_nil, if_false, hload, resolveEach_cached _ hp,
    linkAndKeep, hl, if_neg (Nat.not_lt.mpr hdepth)]

theorem Coherent.relink (h : Coherent r) {stamp : Nat} (stamp' : Nat)
    (hp : List.Forall₂ (fun a p => r.cached? a = some p) d.ancestors parents)
    (hl : link stamp d parents r.policy = .ok t) :
    ∃ u, link stamp' d parents r.policy = .ok u ∧ u.Alike t := by
  obtain ⟨number, hnumber⟩ := Countable.exists_injective_nat DefinitionId
  have hsame := map_restamp_link stamp stamp' (.refl h) (.refl h) hp hp hnumber
  rw [hl] at hsame
  obtain ⟨u, hu, heq⟩ := map_eq_ok.mp hsame.symm
  have halike : (u.restamp number).Alike t := heq ▸ Table.alike_restamp number t
  exact ⟨u, hu, (Table.alike_restamp number u).symm.trans halike⟩

theorem Coherent.exists_linked (h : Coherent r) (hd : r.effective? d.id = some d)
    (ht : (r.get d.id).1 = .ok t) :
    ∃ r₁ parents, Reached r r₁ ∧ r₁.cached? d.id = some t ∧
      List.Forall₂ (fun a p => r₁.cached? a = some p) d.ancestors parents ∧
      link t.stamp d parents r₁.policy = .ok t := by
  have hresolved := resolved_get h d.id
  have hreached := (Reached.refl h).walk hresolved.walk
  have hcached := hresolved.found t ht
  obtain ⟨e, parents, he, -, hp, hl⟩ := hreached.coherent.effective_of_cached hcached
  rw [hreached.effective, hd] at he
  obtain rfl := Option.some.inj he
  exact ⟨_, parents, hreached, hcached, hp, hl⟩

theorem Coherent.cached?_register (h : Coherent r) (hp : r.cached? a = some p)
    (hapart : ¬ Above r.effective? a d.id) : (r.register d).cached? a = some p := by
  refine cached?_invalidate_eq_some.mpr ⟨hp, ?_, ?_⟩
  · rintro rfl
    exact hapart .refl
  · intro hmem
    exact hapart ((h.mem_lineage_iff hp).mp hmem).to_reflTransGen

theorem Coherent.not_above (h : Coherent r) (hp : r.cached? a = some p)
    (ha : Relation.TransGen (Inherits r.effective?) id a) : ¬ Above r.effective? a id :=
  fun habove => h.not_inherits_self hp (.trans_right habove ha)

theorem exists_cached (hr : Reached r₀ r) (hc : Coherent r₀)
    (hids : ∀ a ∈ ids, ∃ t, (r₀.get a).1 = .ok t) :
    ∃ r₁ parents, Idles r r₁ ∧ Grows r r₁ ∧
      List.Forall₂ (fun a p => r₁.cached? a = some p) ids parents := by
  induction ids generalizing r with
  | nil => exact ⟨r, [], .refl, .refl r, .nil⟩
  | cons a ids ih =>
    obtain ⟨ha, hids⟩ := List.forall_mem_cons.mp hids
    obtain ⟨t, ht⟩ := ((hr.agrees hc).succeeds a).mpr ha
    have hresolved := resolved_get hr.coherent a
    obtain ⟨r₁, parents, hidles, hgrows, hp⟩ := ih (hr.walk hresolved.walk) hids
    refine ⟨r₁, t :: parents, .head ⟨.get a, trivial, rfl⟩ hidles,
      hresolved.walk.grows.trans hgrows, .cons ?_ hp⟩
    exact hgrows.cached (hresolved.found t ht)

end Cached

namespace Recast

variable {r r' r₁ r₁' : Registry} {d d' : Definition} {parents parents' : List Table} {u : Table}

theorem of_sources {policy : AmbiguityPolicy} {maxDepth : Nat} {loader loader' : Option Loader}
    {operations operations' : List Operation}
    (hr : r = (empty policy maxDepth loader).afterAll operations)
    (hr' : r' = (empty policy maxDepth loader').afterAll operations')
    (hd : r.effective? d.id = some d) (hid : d'.id = d.id)
    (hsources : ∀ a, r'.effective? a = if a = d.id then some d' else r.effective? a) :
    Recast d d' r r' := by
  have hsame := sameSettings_afterAll (coherent_empty policy maxDepth loader) operations
  have hsame' := sameSettings_afterAll (coherent_empty policy maxDepth loader') operations'
  rw [← hr] at hsame
  rw [← hr'] at hsame'
  exact {
    coherent := hr ▸ coherent_afterAll policy maxDepth loader operations
    coherent' := hr' ▸ coherent_afterAll policy maxDepth loader' operations'
    id := hid
    source := hd
    source' := (hsources d.id).trans (if_pos rfl)
    others := fun a ha => (hsources a).trans (if_neg ha)
    policy := hsame'.policy.trans hsame.policy.symm
    maxDepth := hsame'.maxDepth.trans hsame.maxDepth.symm }

theorem symm (h : Recast d d' r r') : Recast d' d r' r where
  coherent := h.coherent'
  coherent' := h.coherent
  id := h.id.symm
  source := h.id ▸ h.source'
  source' := h.id ▸ h.source
  others := fun a ha => (h.others a (h.id ▸ ha)).symm
  policy := h.policy.symm
  maxDepth := h.maxDepth.symm

theorem of_reached (h : Recast d d' r r') (hr : Reached r r₁) (hr' : Reached r' r₁') :
    Recast d d' r₁ r₁' where
  coherent := hr.coherent
  coherent' := hr'.coherent
  id := h.id
  source := hr.effective ▸ h.source
  source' := hr'.effective ▸ h.source'
  others := by
    rw [hr.effective, hr'.effective]
    exact h.others
  policy := hr'.policy.trans (h.policy.trans hr.policy.symm)
  maxDepth := hr'.maxDepth.trans (h.maxDepth.trans hr.maxDepth.symm)

theorem reached (h : Recast d d' r r') : Reached (r.register d') r' where
  coherent := h.coherent'
  effective := by
    funext a
    rw [effective?_register]
    split
    next ha => rw [ha, h.id, h.source']
    next ha => exact h.others a (h.id ▸ ha)
  policy := h.policy
  maxDepth := h.maxDepth

theorem cached_register (h : Recast d d' r r') {ids : List DefinitionId}
    (hp : List.Forall₂ (fun a p => r.cached? a = some p) ids parents)
    (hinherits : ∀ a ∈ ids, Relation.TransGen (Inherits r.effective?) d.id a) :
    List.Forall₂ (fun a p => (r.register d').cached? a = some p) ids parents := by
  refine (forall₂_imp_of_mem hp.flip fun p a ha hap => ?_).flip
  refine h.coherent.cached?_register hap ?_
  rw [h.id]
  exact h.coherent.not_above hap (hinherits a ha)

/-- What the other definition links to here is the table that it has there, if all that it names are
among what this one inherits from. -/
theorem get_alike (h : Recast d d' r r') {stamp : Nat}
    (hp : List.Forall₂ (fun a p => r.cached? a = some p) d'.ancestors parents)
    (hinherits : ∀ a ∈ d'.ancestors, Relation.TransGen (Inherits r.effective?) d.id a)
    (hl : link stamp d' parents r.policy = .ok u) (hdepth : u.depth ≤ r.maxDepth) :
    ∃ t, (r'.get d'.id).1 = .ok t ∧ t.Alike u := by
  have hc := h.coherent.register d'
  have hkept := h.cached_register hp hinherits
  obtain ⟨v, hv, halike⟩ := hc.relink (r.register d').linked hkept hl
  have hdepth' : v.depth = u.depth := halike.depth_eq
  have hget : ((r.register d').get d'.id).1 = .ok v :=
    get_of_cached_parents ((get?_sources_register r d' d'.id).trans (if_pos rfl))
      (cached?_invalidate_self r d'.id) hkept hv (hdepth' ▸ hdepth)
  have hagrees := h.reached.agrees hc
  obtain ⟨t, ht⟩ := (hagrees.succeeds d'.id).mpr ⟨v, hget⟩
  exact ⟨t, ht, (hagrees.alike hget ht).trans halike⟩

end Recast

end Mudlib.Registry
