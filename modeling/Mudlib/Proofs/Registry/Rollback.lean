import Mudlib.Proofs.Registry.Memoization
set_option autoImplicit false

namespace Mudlib.Registry

/-- Both registries have tables for the same ids, and these differ only in the numbers of their
linkings. -/
structure Agrees (r r' : Registry) : Prop where
  succeeds : ∀ id, (∃ t, (r'.get id).1 = .ok t) ↔ ∃ t, (r.get id).1 = .ok t
  alike : ∀ {id t t'}, (r.get id).1 = .ok t → (r'.get id).1 = .ok t' → t'.Alike t

variable {r r₀ r' : Registry} {id a : DefinitionId} {d : Definition} {e : ResolveError}

/-- The sources and settings decide what can be had from a registry. -/
theorem Reached.agrees (hc : Coherent r₀) (h : Reached r₀ r) : Agrees r₀ r where
  succeeds := by
    intro id
    rw [h.coherent.get_ok_iff_resolvable, hc.get_ok_iff_resolvable, h.effective, h.policy,
      h.maxDepth]
  alike := by
    intro id t t' ht ht'
    obtain ⟨tables, hb⟩ := ((hc.get_ok_iff_resolvable id).mp ⟨t, ht⟩).linkable
    have heq := hc.get_eq_bottomUp ht hb
    rw [← h.effective, ← h.policy] at hb
    have heq' := h.coherent.get_eq_bottomUp ht' hb
    exact (Table.alike_restamp _ t').symm.trans (heq' ▸ heq ▸ Table.alike_restamp _ t)

theorem source?_restoreSource (r : Registry) (id : DefinitionId) (former : Option Definition)
    (a : DefinitionId) :
    (r.restoreSource id former).source? a = if a = id then former else r.source? a := by
  cases former with
  | some d => exact Dict.get?_insert r.sources id a d
  | none => exact Dict.get?_erase r.sources id a

theorem cached?_restoreSource (r : Registry) (id : DefinitionId) (former : Option Definition)
    (a : DefinitionId) : (r.restoreSource id former).cached? a = r.cached? a := by
  cases former <;> rfl

/-- What a definition lies above is not cached as long as the definition is not. -/
theorem Coherent.not_mem_lineage_of_uncached (h : Coherent r) (hn : r.cached? id = none) {t : Table}
    (ht : r.cached? a = some t) : id ∉ t.lineage := by
  intro hmem
  obtain ⟨u, hu, -⟩ := h.cached_of_inherits_many ht (h.inherits_of_mem_lineage ht hmem)
  rw [hn] at hu
  cases hu

theorem Grows.source_or_loadable (h : Grows r r') (hd : r'.source? id = some d) :
    r.source? id = some d ∨ r.source? id = none ∧ r.loadable? id = some d := by
  have heffective : r.effective? id = some d := by
    rw [← h.effective]
    simp [effective?, hd]
  exact Option.or_eq_some_iff.mp heffective

/-- The way to a failed compilation: the definition was registered, its resolution failed, and the
source before it was put back. -/
theorem compile_eq_error (h : r.compile d = (.error e, r')) :
    ∃ r₁, (r.register d).get d.id = (.error e, r₁) ∧
      r' = r₁.restoreSource d.id (r.source? d.id) := by
  cases hu : r.unchanged? d with
  | some t =>
    rw [compile_unchanged hu] at h
    cases h
  | none =>
    rcases hg : (r.register d).get d.id with ⟨out, r₁⟩
    cases out with
    | ok t =>
      rw [compile_ok hu hg] at h
      cases h
    | error e' =>
      rw [compile_error hu hg] at h
      cases h
      exact ⟨r₁, rfl, rfl⟩

theorem source?_compile_error (hc : Coherent r) (h : r.compile d = (.error e, r')) :
    (∀ a s, r.source? a = some s → r'.source? a = some s) ∧
      r'.source? d.id = r.source? d.id ∧
      ∀ a s, r'.source? a = some s → r.source? a = none → r.loadable? a = some s := by
  obtain ⟨r₁, hg, rfl⟩ := compile_eq_error h
  have hgrows := (resolved_get (hc.register d) d.id).walk.grows
  rw [hg] at hgrows
  have hregistered : ∀ {a}, a ≠ d.id → (r.register d).source? a = r.source? a := fun ha =>
    (get?_sources_register r d _).trans (if_neg ha)
  have hself : (r₁.restoreSource d.id (r.source? d.id)).source? d.id = r.source? d.id := by
    rw [source?_restoreSource, if_pos rfl]
  refine ⟨?_, hself, ?_⟩
  · intro a s hs
    by_cases ha : a = d.id
    · rw [ha] at hs ⊢
      rw [hself, hs]
    · rw [source?_restoreSource, if_neg ha]
      exact hgrows.source ((hregistered ha).trans hs)
  · intro a s hs hn
    by_cases ha : a = d.id
    · rw [ha, hself, ← ha, hn] at hs
      cases hs
    · rw [source?_restoreSource, if_neg ha] at hs
      rcases hgrows.source_or_loadable hs with hs | ⟨-, hs⟩
      · rw [hregistered ha, hn] at hs
        cases hs
      · exact hs

theorem cached?_compile_error (hc : Coherent r) (h : r.compile d = (.error e, r')) :
    r'.cached? d.id = none := by
  obtain ⟨r₁, hg, rfl⟩ := compile_eq_error h
  have hresolved := resolved_get (hc.register d) d.id
  rw [hg] at hresolved
  rw [cached?_restoreSource]
  exact hresolved.missing e rfl

theorem reached_compile_error (hc : Coherent r) (h : r.compile d = (.error e, r')) :
    Reached r r' := by
  have hcoherent := hc.compile d
  have hsame := sameSettings_compile hc d
  rw [h] at hcoherent hsame
  exact ⟨hcoherent, funext (effective?_compile_error hc h), hsame.policy, hsame.maxDepth⟩

/-- A failed compilation is rolled back: every source is the one before it, what is stored besides
came from the loader, neither the definition nor anything that embeds it is cached, and each id has
a table just as it had one before. -/
theorem failed_compile_rolls_back (policy : AmbiguityPolicy) (maxDepth : Nat)
    (loader : Option Loader) (operations : List Operation) (d : Definition) (e : ResolveError)
    (r r' : Registry) (hr : r = (empty policy maxDepth loader).afterAll operations)
    (h : r.compile d = (.error e, r')) :
    (∀ a s, r.source? a = some s → r'.source? a = some s) ∧
    r'.source? d.id = r.source? d.id ∧
    (∀ a s, r'.source? a = some s → r.source? a = none →
      ∃ load, loader = some load ∧ load a = .ok (some s)) ∧
    r'.cached? d.id = none ∧
    (∀ a t, r'.cached? a = some t → d.id ∉ t.lineage) ∧
    Agrees r r' := by
  have hc : Coherent r := hr ▸ coherent_afterAll policy maxDepth loader operations
  have hsame := sameSettings_afterAll (coherent_empty policy maxDepth loader) operations
  have hloader : r.loader = loader := by
    rw [hr, hsame.loader]
    rfl
  obtain ⟨hkept, hself, hadded⟩ := source?_compile_error hc h
  have hn := cached?_compile_error hc h
  have hreached := reached_compile_error hc h
  refine ⟨hkept, hself, ?_, hn, ?_, hreached.agrees hc⟩
  · intro a s hs hnone
    obtain ⟨load, hl, hload⟩ := loadable?_eq_some.mp (hadded a s hs hnone)
    exact ⟨load, hloader ▸ hl, hload⟩
  · intro a t ht
    exact hreached.coherent.not_mem_lineage_of_uncached hn ht

section Recast

def candle : Definition := Definition.empty ⟨"/candle", by decide⟩

def sconce : Definition := (Definition.empty ⟨"/sconce", by decide⟩).addAncestor candle.id

def recast : Definition :=
  ((Definition.empty candle.id).addMethod "burn" ⟨.native [], []⟩).addAncestor
    ⟨"/wick", by decide⟩

def mounted : List Operation := [.register candle, .register sconce, .get sconce.id]

/-- The sconce had been linked against the candle that is tried anew; it is not cached any more, and
can be had as before. -/
theorem recast_candle_rolled_back : ∃ e r',
    ((empty .firstContributor 8 none).afterAll mounted).compile recast = (.error e, r') ∧
    r'.source? candle.id = ((empty .firstContributor 8 none).afterAll mounted).source? candle.id ∧
    r'.cached? candle.id = none ∧ (∀ a t, r'.cached? a = some t → candle.id ∉ t.lineage) ∧
    Agrees ((empty .firstContributor 8 none).afterAll mounted) r' := by
  have hrun : ((((empty .firstContributor 8 none).afterAll mounted).compile recast).1.toOption
      ).isNone = true := by
    decide +kernel
  rcases h : ((empty .firstContributor 8 none).afterAll mounted).compile recast with
    ⟨e | t, r'⟩
  · obtain ⟨-, hself, -, hn, hlineage, hagrees⟩ := failed_compile_rolls_back _ _ _ _ _ _ _ _ rfl h
    exact ⟨e, r', rfl, hself, hn, hlineage, hagrees⟩
  · rw [h] at hrun
    cases hrun

end Recast

end Mudlib.Registry
