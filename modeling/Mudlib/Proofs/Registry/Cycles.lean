import Mudlib.Proofs.Registry.Histories
/-!
Inheritance cycles: what is reported as one is one, and nothing in the cache leads to any.

A report shows the path of the walk that came back to where it was. The walk loads sources as it
goes and keeps tables, but it loads none that counted for something else before, and finishes
nothing that it is still inside of.
-/
set_option autoImplicit false

namespace Mudlib

theorem ne_inheritanceCycle_of_link {stamp : Nat} {d : Definition} {parents : List Table}
    {policy : AmbiguityPolicy} {e : ResolveError} (h : link stamp d parents policy = .error e)
    (chain : List DefinitionId) : e ≠ .inheritanceCycle chain := by
  rintro rfl
  cases faulty_of_link h with
  | call _ _ hunbound => cases hunbound

namespace Registry

/-- A chain of ancestors that are all distinct up to the last, which is one of those before it. -/
structure Returning (sources : DefinitionId → Option Definition) (chain : List DefinitionId) :
    Prop where
  path : List.IsChain (Inherits sources) chain
  again : ∃ before a, chain = before ++ [a] ∧ before.Nodup ∧ before.count a = 1

variable {visiting chain : List DefinitionId} {id a : DefinitionId} {r₀ r r' : Registry}
variable {room : Nat}

/-- A walk that reports a cycle has gone on from where it was until it came back, and has finished
nothing on the way. -/
theorem returning_within (hr : Continues r₀ r) (harrived : Arrived r₀ room visiting id)
    (h : resolveWithin room visiting id r = (.error (.inheritanceCycle chain), r')) :
    ∃ rest, chain = visiting ++ id :: rest ∧ Returning r₀.effective? chain ∧
      chain.length ≤ r₀.maxDepth + 2 ∧ ∀ a ∈ id :: rest, r'.cached? a = none := by
  induction room using Nat.strongRecOn generalizing visiting id r r' with
  | ind room ih =>
    have hn' : r'.cached? id = none := by
      have hresolved : Resolved visiting id r (resolveWithin room visiting id r) :=
        resolved_within room hr.coherent
      rw [h] at hresolved
      exact hresolved.missing _ rfl
    cases hn : r.cached? id with
    | some t =>
      rw [resolveWithin_cached room hn] at h
      cases h
    | none =>
      by_cases hv : id ∈ visiting
      · rw [resolveWithin_visiting room hn hv] at h
        cases h
        -- the walk is back at an id that it came through
        have hroom := harrived.room
        have hagain := List.count_eq_one_of_mem harrived.nodup hv
        refine ⟨[], rfl, ⟨harrived.path, visiting, id, rfl, harrived.nodup, hagain⟩, ?_, ?_⟩
        · rw [List.length_append, List.length_singleton]
          omega
        · exact List.forall_mem_singleton.mpr hn
      cases room with
      | zero =>
        rw [resolveWithin_zero hn hv] at h
        cases h
      | succ room =>
        have hentered := entered_resolveWithin room hn hv
        rw [h] at hentered
        generalize hout : (Except.error (ResolveError.inheritanceCycle chain), r') = out at hentered
        cases hentered with
        | unloaded h₁ =>
          cases hout
          obtain ⟨-, -, he | ⟨fault, he⟩, -⟩ := loadSource_error h₁ <;> cases he
        | blocked h₁ h₂ =>
          cases hout
          obtain ⟨a, r₁, hnext, hr₁, ha⟩ := harrived.blocked hr hn hv h₁ h₂
          obtain ⟨rest, rfl, hreturning, hlength, huncached⟩ :=
            ih room (Nat.lt_succ_self room) hr₁ hnext ha
          refine ⟨a :: rest, ?_, hreturning, hlength, List.forall_mem_cons.mpr ⟨hn', huncached⟩⟩
          rw [List.append_assoc, List.singleton_append]
        | reached h₁ h₂ =>
          rcases linkAndKeep_error hout.symm with ⟨hl, -⟩ | ⟨-, -, -, he, -⟩
          · exact absurd rfl (ne_inheritanceCycle_of_link hl chain)
          · cases he

/-- In every state that operations can bring about, a cycle that a look-up reports is one: a chain
that starts from the id asked for and goes on to an ancestor that the source declares at each step,
through ids that are all distinct and not cached, until it comes to one of them again, and this within
the limit. And no cached id has a cycle above it, nor does it lie on one. -/
theorem reported_cycles_are_there (policy : AmbiguityPolicy) (maxDepth : Nat)
    (loader : Option Loader) (operations : List Operation) :
    let r := (empty policy maxDepth loader).afterAll operations
    (∀ id chain, (r.get id).1 = .error (.inheritanceCycle chain) →
      chain.head? = some id ∧ Returning r.effective? chain ∧ chain.length ≤ maxDepth + 2 ∧
      ∀ a ∈ chain, r.cached? a = none ∧ (r.get id).2.cached? a = none) ∧
    ∀ id t a, r.cached? id = some t → Above r.effective? id a →
      ¬ Relation.TransGen (Inherits r.effective?) a a := by
  intro r
  have hc : Coherent r := coherent_afterAll policy maxDepth loader operations
  have hdepth : r.maxDepth = maxDepth :=
    (sameSettings_afterAll (coherent_empty policy maxDepth loader) operations).maxDepth
  refine ⟨?_, fun id t a ht habove => (hc.resolvable_of_cached ht).acyclic habove⟩
  intro id chain hget
  obtain ⟨rest, rfl, hreturning, hlength, huncached⟩ :=
    returning_within (.refl hc) (arrived_first r id) (Prod.ext hget rfl)
  refine ⟨rfl, hreturning, hdepth ▸ hlength, fun a ha => ⟨?_, huncached a ha⟩⟩
  -- what was cached before is cached still
  cases ht : r.cached? a with
  | none => rfl
  | some t =>
    have hkept := (resolved_get hc id).walk.grows.cached ht
    rw [get, huncached a ha] at hkept
    cases hkept

section Coop

def chicken : Definition :=
  (Definition.empty ⟨"/chicken", by decide⟩).addAncestor ⟨"/egg", by decide⟩

def egg : Definition := (Definition.empty ⟨"/egg", by decide⟩).addAncestor chicken.id

def brood : Definition := (Definition.empty ⟨"/brood", by decide⟩).addAncestor egg.id

/-- The chain begins with what was asked for, which need not lie on the cycle itself. -/
example : ((((empty .firstContributor 8 none).afterAll
    [.register chicken, .register egg, .register brood]).get brood.id).1.map Table.id) =
      .error (.inheritanceCycle [brood.id, egg.id, chicken.id, egg.id]) := by
  decide +kernel

end Coop

end Registry

end Mudlib
