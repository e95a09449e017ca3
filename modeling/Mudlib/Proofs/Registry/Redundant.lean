import Mudlib.Proofs.Link.Redundant
import Mudlib.Proofs.Registry.Order
set_option autoImplicit false

namespace Mudlib.Registry

namespace Coherent

variable {r : Registry} {a b : DefinitionId} {p z : Table}

theorem auxiliaries_of_above (h : Coherent r) (hp : r.cached? a = some p)
    (hz : r.cached? b = some z) (hab : Above r.effective? a b) :
    ∀ x ∈ z.auxiliaries, x ∈ p.auxiliaries := by
  induction hab using Relation.ReflTransGen.head_induction_on generalizing p with
  | refl =>
    obtain rfl := Option.some.inj (hp.symm.trans hz)
    exact fun _ => id
  | head hinherits _ ih =>
    intro x hx
    obtain ⟨d, parents, hd, -, hparents, hl⟩ := h.effective_of_cached hp
    obtain ⟨e, he, hc⟩ := hinherits
    obtain rfl := Option.some.inj (hd.symm.trans he)
    obtain ⟨q, hq, hcq⟩ := exists_mem_of_forall₂ hparents.flip hc
    exact (mem_auxiliaries_of_link hl).mpr (.inl ⟨q, hq, ih hcq x hx⟩)

theorem carries (h : Coherent r) (hp : r.cached? a = some p) (hz : r.cached? b = some z)
    (hab : Above r.effective? a b) : Link.Carries p z where
  family := by
    intro x hx
    rw [h.mem_family_iff hz] at hx
    exact (h.mem_family_iff hp).mpr (hab.trans hx)
  depth := by
    rcases above_iff.mp hab with rfl | hab
    · rw [Option.some.inj (hp.symm.trans hz)]
    · obtain ⟨u, hu, hlt⟩ := h.cached_of_inherits_many hp hab
      rw [Option.some.inj (hz.symm.trans hu)]
      exact Nat.le_of_lt hlt
  fields := by
    intro name slot hslot
    obtain ⟨habove, hdeclared⟩ := h.declared_of_field hz hslot
    exact h.field_of_declares hp (hab.trans habove) hdeclared.declares
  owners := by
    intro name x hx
    obtain ⟨habove, hdeclares⟩ := ((h.gathered hz name).mem x).mp hx
    exact ((h.gathered hp name).mem x).mpr ⟨hab.trans habove, hdeclares⟩
  auxiliaries := h.auxiliaries_of_above hp hz hab

end Coherent

section Inserting

variable {r r' : Registry} {d : Definition} {before after : List DefinitionId}
variable {p z : DefinitionId} {t : Table}

theorem inherits_insert (hd : r.effective? d.id = some d) (hancestors : d.ancestors = before ++ after)
    (hp : p ∈ before) (hz : Above r.effective? p z) :
    ∀ a ∈ before ++ z :: after, Relation.TransGen (Inherits r.effective?) d.id a := by
  have hlisted : ∀ a ∈ before ++ after, Inherits r.effective? d.id a :=
    fun a ha => ⟨d, hd, hancestors ▸ ha⟩
  intro a ha
  rcases List.mem_append.mp ha with ha | ha
  · exact .single (hlisted a (List.mem_append_left _ ha))
  · rcases List.mem_cons.mp ha with rfl | ha
    · exact .head' (hlisted p (List.mem_append_left _ hp)) hz
    · exact .single (hlisted a (List.mem_append_right _ ha))

theorem Coherent.link_insert (h : Coherent r) (hpolicy : r.policy = .firstContributor)
    (hancestors : d.ancestors = before ++ after) (hp : p ∈ before) (hz : Above r.effective? p z)
    {parents : List Table} {stamp : Nat} {zt : Table} (hzt : r.cached? z = some zt)
    (hparents : List.Forall₂ (fun a p => r.cached? a = some p) d.ancestors parents)
    (hl : link stamp d parents r.policy = .ok t) :
    ∃ parents', List.Forall₂ (fun a p => r.cached? a = some p) (before ++ z :: after) parents' ∧
      link stamp { d with ancestors := before ++ z :: after } parents' r.policy = .ok { t with
        ancestors := before ++ z :: after
        fingerprint := Definition.fingerprint? { d with ancestors := before ++ z :: after } } := by
  rw [hancestors] at hparents
  obtain ⟨tables, tables', rfl, hbefore, hafter⟩ := forall₂_append_left hparents
  obtain ⟨pt, hpt, hpp⟩ := exists_mem_of_forall₂ hbefore.flip hp
  have hinserted : List.Forall₂ (fun a p => r.cached? a = some p) (before ++ z :: after)
      (tables ++ zt :: tables') := List.rel_append hbefore (.cons hzt hafter)
  rw [hpolicy] at hl ⊢
  refine ⟨tables ++ zt :: tables', hinserted, ?_⟩
  rw [link_withAncestors, Mudlib.link_insert (h.consistent hinserted) hpt (h.carries hpp hzt hz) hl]
  rfl

theorem Recast.get_insert (h : Recast d { d with ancestors := before ++ z :: after } r r')
    (hpolicy : r.policy = .firstContributor) (hancestors : d.ancestors = before ++ after)
    (hp : p ∈ before) (hz : Above r.effective? p z) (ht : (r.get d.id).1 = .ok t) :
    ∃ t', (r'.get d.id).1 = .ok t' ∧ t'.Alike { t with
      ancestors := before ++ z :: after
      fingerprint := Definition.fingerprint? { d with ancestors := before ++ z :: after } } := by
  obtain ⟨r₁, parents, hreached, hcached, hparents, hl⟩ := h.coherent.exists_linked h.source ht
  have h₁ := h.of_reached hreached (.refl h.coherent')
  rw [← hreached.effective] at hz
  have hinherits := inherits_insert h₁.source hancestors hp hz
  obtain ⟨zt, hzt, -⟩ := h₁.coherent.cached_of_inherits_many hcached (hinherits z (by simp))
  obtain ⟨parents', hparents', hl'⟩ := h₁.coherent.link_insert (hreached.policy.trans hpolicy)
    hancestors hp hz hzt hparents hl
  have hdepth : t.depth ≤ r₁.maxDepth := h₁.coherent.shallow hcached
  exact h₁.get_alike hparents' hinherits hl' hdepth

/-- A definition that resolves under the policy of the first contributor does so too where its
ancestors are listed with one of them once more, or with one that this inherits from, anywhere behind
it: its table has the same fields, the same implementations in the same order with the same calls and
defaults, the same lineage, depth and auxiliaries. Only the list of ancestors and the fingerprint are
those of the other source. -/
theorem redundant_ancestor_is_harmless (maxDepth : Nat) {loader loader' : Option Loader}
    {operations operations' : List Operation} {r r' : Registry} {d : Definition}
    {before after : List DefinitionId} {p z : DefinitionId} {t : Table}
    (hr : r = (empty .firstContributor maxDepth loader).afterAll operations)
    (hr' : r' = (empty .firstContributor maxDepth loader').afterAll operations')
    (hd : r.effective? d.id = some d) (hancestors : d.ancestors = before ++ after)
    (hp : p ∈ before) (hz : Above r.effective? p z)
    (hsources : ∀ a, r'.effective? a =
      if a = d.id then some { d with ancestors := before ++ z :: after } else r.effective? a)
    (ht : (r.get d.id).1 = .ok t) :
    ∃ t', (r'.get d.id).1 = .ok t' ∧ t'.Alike { t with
      ancestors := before ++ z :: after
      fingerprint := Definition.fingerprint? { d with ancestors := before ++ z :: after } } := by
  have hsame := sameSettings_afterAll (coherent_empty .firstContributor maxDepth loader) operations
  rw [← hr] at hsame
  have h : Recast d { d with ancestors := before ++ z :: after } r r' :=
    .of_sources hr hr' hd rfl hsources
  exact h.get_insert hsame.policy hancestors hp hz ht

end Inserting

section Restating

def lanternRestated : Definition := { lantern with ancestors := [portable.id, thing.id, glowing.id] }

/-- That a lantern is a thing was known from its being portable. -/
theorem lantern_restated_is_alike :
    let r := (empty .firstContributor 8 none).afterAll diamond
    Above r.effective? portable.id thing.id ∧
    ∃ t t', (r.get lantern.id).1 = .ok t ∧
      ((r.register lanternRestated).get lantern.id).1 = .ok t' ∧ t'.Alike { t with
        ancestors := lanternRestated.ancestors
        fingerprint := lanternRestated.fingerprint? } := by
  intro r
  have habove : Above r.effective? portable.id thing.id := .single ⟨portable, rfl, by decide⟩
  have hrun : (r.get lantern.id).1.toOption.isSome = true := by decide +kernel
  obtain ⟨t, ht⟩ := Option.isSome_iff_exists.mp hrun
  have ht := eq_ok_of_toOption ht
  have hrestated : r.register lanternRestated =
      (empty .firstContributor 8 none).afterAll (diamond ++ [.register lanternRestated]) := rfl
  have hsources : ∀ a, (r.register lanternRestated).effective? a = if a = lantern.id then
      some { lantern with ancestors := [portable.id] ++ thing.id :: [glowing.id] }
      else r.effective? a := effective?_register r lanternRestated
  have hr : r = (empty .firstContributor 8 none).afterAll diamond := rfl
  obtain ⟨t', ht', halike⟩ := redundant_ancestor_is_harmless 8 hr hrestated rfl rfl
    List.mem_cons_self habove hsources ht
  exact ⟨habove, t, t', ht, ht', halike⟩

end Restating

end Mudlib.Registry
