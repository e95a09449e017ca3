import Mudlib.Proofs.Registry.Resolution
set_option autoImplicit false

namespace Mudlib.Registry

variable {r r' : Registry} {id : DefinitionId} {d : Definition}

theorem unchanged?_eq_some {t : Table} (h : r.unchanged? d = some t) : r.cached? d.id = some t := by
  unfold unchanged? at h
  split at h
  next ht =>
    split at h
    · cases h; exact ht
    · cases h
  next => cases h

theorem compile_unchanged {t : Table} (h : r.unchanged? d = some t) : r.compile d = (.ok t, r) := by
  simp only [compile, h]

theorem compile_ok {t : Table} (hn : r.unchanged? d = none)
    (h : (r.register d).get d.id = (.ok t, r')) : r.compile d = (.ok t, r') := by
  simp only [compile, hn, h]

theorem compile_error {e : ResolveError} (hn : r.unchanged? d = none)
    (h : (r.register d).get d.id = (.error e, r')) :
    r.compile d = (.error e, r'.restoreSource d.id (r.source? d.id)) := by
  simp only [compile, hn, h]

namespace Coherent

theorem get (h : Coherent r) (id : DefinitionId) : Coherent (r.get id).2 :=
  (resolved_get h id).walk.coherent h

theorem of_get (h : Coherent r) {t : Table} (hg : r.get id = (.ok t, r')) :
    Coherent r' ∧ r'.cached? id = some t := by
  have hresolved := resolved_get h id
  rw [hg] at hresolved
  exact ⟨hresolved.walk.coherent h, hresolved.found t rfl⟩

theorem id_of_get (h : Coherent r) {t : Table} (hg : (r.get id).1 = .ok t) : t.id = id := by
  have hget : r.get id = (.ok t, (r.get id).2) := Prod.ext hg rfl
  obtain ⟨hcoherent, hcached⟩ := h.of_get hget
  exact hcoherent.id_eq hcached

theorem compile (h : Coherent r) (d : Definition) : Coherent (r.compile d).2 := by
  cases hu : r.unchanged? d with
  | some t =>
    rw [compile_unchanged hu]
    exact h
  | none =>
    have hregistered := h.register d
    have hresolved := resolved_get hregistered d.id
    rcases hg : (r.register d).get d.id with ⟨out, r'⟩
    rw [hg] at hresolved
    have hr' := hresolved.walk.coherent hregistered
    cases out with
    | ok t =>
      rw [compile_ok hu hg]
      exact hr'
    | error e =>
      rw [compile_error hu hg]
      exact hr'.restoreSource (hresolved.missing e rfl) fun _ he => h.keyed he

theorem cached?_compile (h : Coherent r) {t : Table} (ht : (r.compile d).1 = .ok t) :
    (r.compile d).2.cached? d.id = some t := by
  cases hu : r.unchanged? d with
  | some u =>
    rw [compile_unchanged hu] at ht ⊢
    cases ht
    exact unchanged?_eq_some hu
  | none =>
    rcases hg : (r.register d).get d.id with ⟨out, r'⟩
    cases out with
    | ok u =>
      rw [compile_ok hu hg] at ht ⊢
      cases ht
      exact ((h.register d).of_get hg).2
    | error e =>
      rw [compile_error hu hg] at ht
      cases ht

theorem after (h : Coherent r) (operation : Operation) : Coherent (r.after operation) := by
  cases operation with
  | register d => exact h.register d
  | compile d => exact h.compile d
  | get id => exact h.get id
  | invalidate id => exact h.invalidate id
  | unload id => exact h.unload id

theorem afterAll (h : Coherent r) (operations : List Operation) :
    Coherent (r.afterAll operations) := by
  induction operations generalizing r with
  | nil => exact h
  | cons operation operations ih => exact ih (h.after operation)

end Coherent

structure SameSettings (r r' : Registry) : Prop where
  policy : r'.policy = r.policy
  maxDepth : r'.maxDepth = r.maxDepth
  loader : r'.loader = r.loader

namespace SameSettings

theorem refl (r : Registry) : SameSettings r r := ⟨rfl, rfl, rfl⟩

theorem trans {r'' : Registry} (h : SameSettings r r') (h' : SameSettings r' r'') :
    SameSettings r r'' :=
  ⟨h'.policy.trans h.policy, h'.maxDepth.trans h.maxDepth, h'.loader.trans h.loader⟩

theorem of_grows (h : Grows r r') : SameSettings r r' := ⟨h.policy, h.maxDepth, h.loader⟩

theorem restoreSource (r : Registry) (id : DefinitionId) (former : Option Definition) :
    SameSettings r (r.restoreSource id former) := by
  cases former <;> exact ⟨rfl, rfl, rfl⟩

end SameSettings

theorem sameSettings_compile (h : Coherent r) (d : Definition) : SameSettings r (r.compile d).2 := by
  cases hu : r.unchanged? d with
  | some t =>
    rw [compile_unchanged hu]
    exact .refl r
  | none =>
    have hresolved := resolved_get (h.register d) d.id
    rcases hg : (r.register d).get d.id with ⟨out, r'⟩
    rw [hg] at hresolved
    have hgrows : SameSettings (r.register d) r' := .of_grows hresolved.walk.grows
    have hsame : SameSettings r r' := ⟨hgrows.policy, hgrows.maxDepth, hgrows.loader⟩
    cases out with
    | ok t =>
      rw [compile_ok hu hg]
      exact hsame
    | error e =>
      rw [compile_error hu hg]
      exact hsame.trans (.restoreSource r' d.id (r.source? d.id))

theorem sameSettings_after (h : Coherent r) (operation : Operation) :
    SameSettings r (r.after operation) := by
  cases operation with
  | register d => exact ⟨rfl, rfl, rfl⟩
  | compile d => exact sameSettings_compile h d
  | get id => exact .of_grows (resolved_get h id).walk.grows
  | invalidate id => exact ⟨rfl, rfl, rfl⟩
  | unload id => exact ⟨rfl, rfl, rfl⟩

theorem sameSettings_afterAll (h : Coherent r) (operations : List Operation) :
    SameSettings r (r.afterAll operations) := by
  induction operations generalizing r with
  | nil => exact .refl r
  | cons operation operations ih =>
    exact (sameSettings_after h operation).trans (ih (h.after operation))

theorem effective?_register (r : Registry) (d : Definition) (a : DefinitionId) :
    (r.register d).effective? a = if a = d.id then some d else r.effective? a := by
  have hs := get?_sources_register r d a
  simp only [effective?, source?, hs]
  split <;> rfl

theorem effective?_unload (r : Registry) (id a : DefinitionId) :
    (r.unload id).effective? a = if a = id then r.loadable? a else r.effective? a := by
  have hs := get?_sources_unload r id a
  simp only [effective?, source?, hs]
  split <;> rfl

theorem effective?_restoreSource (r : Registry) (id : DefinitionId) (former : Option Definition)
    (a : DefinitionId) :
    (r.restoreSource id former).effective? a =
      if a = id then former.or (r.loadable? a) else r.effective? a := by
  cases former with
  | some d =>
    simp only [effective?, source?, restoreSource, Dict.get?_insert]
    split <;> rfl
  | none =>
    simp only [effective?, source?, restoreSource, Dict.get?_erase]
    split <;> rfl

theorem effective?_compile_error (h : Coherent r) {e : ResolveError}
    (hfail : r.compile d = (.error e, r')) (a : DefinitionId) :
    r'.effective? a = r.effective? a := by
  cases hu : r.unchanged? d with
  | some t =>
    rw [compile_unchanged hu] at hfail
    cases hfail
  | none =>
    have hresolved := resolved_get (h.register d) d.id
    rcases hg : (r.register d).get d.id with ⟨out, r₁⟩
    rw [hg] at hresolved
    have hgrows := hresolved.walk.grows
    cases out with
    | ok t =>
      rw [compile_ok hu hg] at hfail
      cases hfail
    | error e' =>
      rw [compile_error hu hg] at hfail
      cases hfail
      rw [effective?_restoreSource]
      split
      next ha =>
        subst ha
        have hloader : r₁.loader = r.loader := hgrows.loader
        have hload : r₁.loadable? d.id = r.loadable? d.id := by simp only [loadable?, hloader]
        rw [hload]
        rfl
      next ha =>
        have heff := hgrows.effective a
        rw [effective?_register, if_neg ha] at heff
        exact heff

end Mudlib.Registry
