import Mathlib.SetTheory.Cardinal.Finite
import Mudlib.Proofs.Space.Forecast
/-!
What a creation is to make, planned from the tables that the registry has to give.

The auxiliaries of an instance have auxiliaries again, so that a plan unfolds the graph of auxiliaries
into a tree. Where the graph comes back to a definition on the way down the plan fails; there are only
finitely many definitions, so that every plan comes to an end.
-/
set_option autoImplicit false

namespace Mudlib

/-- An instance of a definition, with its field values and with what is attached to it, in order. -/
inductive Assembly where
  | mk (definition : DefinitionId) (fields : Dict String Value) (parts : List Assembly)

namespace Assembly

def definition : Assembly → DefinitionId
  | .mk definition _ _ => definition

mutual

def size : Assembly → Nat
  | .mk _ _ parts => sizeAll parts + 1
termination_by structural a => a

def sizeAll : List Assembly → Nat
  | [] => 0
  | part :: parts => part.size + sizeAll parts
termination_by structural parts => parts

end

def idsFrom : Nat → List Assembly → List InstanceId
  | _, [] => []
  | n, part :: parts => ⟨n⟩ :: idsFrom (n + part.size) parts

end Assembly

namespace Space

def planSetUp (s : Space) (planPart : DefinitionId → Forecast Mishap Assembly) (bound : Nat)
    (chain : List DefinitionId) (definition : DefinitionId) (t : Table) :
    Forecast Mishap Assembly :=
  if definition ∈ chain then some (.error (.cyclic definition))
  else
    (Forecast.collect planPart (s.auxiliariesOf t)).andThen fun parts =>
      (t.startUp s.initMethod bound).andThen fun fields =>
        some (.ok (.mk definition fields parts))

/-- The plan of an instance, at most `bound` creations and calls deep; `chain` are the definitions
whose auxiliaries it is planned for. -/
def plan (s : Space) :
    Nat → Bool → List DefinitionId → DefinitionId → Forecast Mishap Assembly
  | 0, _, _, _ => none
  | n + 1, allowPrototype, chain, definition =>
    match (s.registry.get definition).1 with
    | .error _ => some (.error (.unresolved definition))
    | .ok t =>
      if t.prototype && !allowPrototype then some (.error (.prototype definition))
      else s.planSetUp (s.plan n false (chain ++ [definition])) n chain definition t

def Needs (s : Space) (a b : DefinitionId) : Prop :=
  ∃ t, (s.registry.get a).1 = .ok t ∧ b ∈ s.auxiliariesOf t

def Ready (s : Space) (definition : DefinitionId) : Prop :=
  ∃ t, (s.registry.get definition).1 = .ok t ∧ t.prototype = false ∧
    ∃ bound fields, t.startUp s.initMethod bound = some (.ok fields)

variable {s : Space} {n : Nat} {allowPrototype : Bool} {chain : List DefinitionId}
variable {definition d e : DefinitionId} {assembly : Assembly}

theorem planSetUp_eq_ok {planPart : DefinitionId → Forecast Mishap Assembly} {t : Table}
    (h : s.planSetUp planPart n chain definition t = some (.ok assembly)) :
    ∃ fields parts, assembly = .mk definition fields parts ∧
      List.Forall₂ (fun d part => planPart d = some (.ok part)) (s.auxiliariesOf t) parts := by
  unfold planSetUp at h
  split at h
  · cases h
  · obtain ⟨parts, hparts, h⟩ := Forecast.andThen_eq_ok.mp h
    obtain ⟨fields, -, h⟩ := Forecast.andThen_eq_ok.mp h
    cases h
    exact ⟨fields, parts, rfl, Forecast.collect_eq_ok.mp hparts⟩

theorem plan_eq_ok (h : s.plan (n + 1) allowPrototype chain definition = some (.ok assembly)) :
    ∃ t fields parts, (s.registry.get definition).1 = .ok t ∧
      assembly = .mk definition fields parts ∧
      List.Forall₂ (fun d part => s.plan n false (chain ++ [definition]) d = some (.ok part))
        (s.auxiliariesOf t) parts := by
  unfold plan at h
  split at h
  · cases h
  next t ht =>
    split at h
    · cases h
    · obtain ⟨fields, parts, heq, hparts⟩ := planSetUp_eq_ok h
      exact ⟨t, fields, parts, ht, heq, hparts⟩

theorem definition_of_plan (h : s.plan n allowPrototype chain definition = some (.ok assembly)) :
    assembly.definition = definition := by
  cases n with
  | zero => cases h
  | succ n =>
    obtain ⟨t, fields, parts, -, rfl, -⟩ := plan_eq_ok h
    rfl

theorem definitions_of_parts {definitions : List DefinitionId} {parts : List Assembly}
    (h : List.Forall₂ (fun d part => s.plan n allowPrototype chain d = some (.ok part)) definitions
      parts) : parts.map Assembly.definition = definitions := by
  induction h with
  | nil => rfl
  | cons hone _ ih => rw [List.map_cons, ih, definition_of_plan hone]

theorem acyclic_of_plan (h : s.plan n allowPrototype chain definition = some (.ok assembly))
    (hd : Relation.ReflTransGen s.Needs definition d) : ¬ Relation.TransGen s.Needs d d := by
  induction n generalizing allowPrototype chain definition d assembly with
  | zero => cases h
  | succ n ih =>
    obtain ⟨t, fields, parts, ht, -, hparts⟩ := plan_eq_ok h
    have hneeded : ∀ {a b}, s.Needs definition a → Relation.ReflTransGen s.Needs a b →
        ¬ Relation.TransGen s.Needs b b := by
      intro a b ha hab
      obtain ⟨u, hu, hmem⟩ := ha
      rw [ht] at hu
      cases hu
      obtain ⟨part, -, hpart⟩ := exists_mem_of_forall₂ hparts.flip hmem
      exact ih hpart hab
    rcases Relation.ReflTransGen.cases_head hd with rfl | ⟨a, ha, had⟩
    · -- a cycle through the definition is also one through what it needs first
      intro hcycle
      obtain ⟨a, ha, hback⟩ := Relation.TransGen.head'_iff.mp hcycle
      exact hneeded ha .refl (.tail' hback ha)
    · exact hneeded ha had

theorem startUp_of_ready {t : Table} {bound : Nat} {fields : Dict String Value}
    (h : t.startUp s.initMethod bound = some (.ok fields)) (n : Nat) (e : Mishap) :
    t.startUp s.initMethod n ≠ some (.error e) := by
  intro herror
  rcases Nat.le_total n bound with hle | hle
  · rw [(t.refines_startUp s.initMethod hle).eq_some herror] at h
    cases h
  · rw [(t.refines_startUp s.initMethod hle).eq_some h] at herror
    cases herror

/-- When all that is needed is ready, a plan can only fail for a cycle. -/
theorem cyclic_of_plan_error {e : Mishap}
    (hready : ∀ d, Relation.ReflTransGen s.Needs definition d → s.Ready d)
    (hchain : ∀ a ∈ chain, Relation.TransGen s.Needs a definition)
    (h : s.plan n allowPrototype chain definition = some (.error e)) :
    ∃ d, e = .cyclic d ∧ Relation.ReflTransGen s.Needs definition d ∧
      Relation.TransGen s.Needs d d := by
  induction n generalizing allowPrototype chain definition with
  | zero => cases h
  | succ n ih =>
    obtain ⟨t, ht, hprototype, bound, fields, hstart⟩ := hready definition .refl
    simp only [plan, ht, hprototype, Bool.false_and, Bool.false_eq_true, if_false, planSetUp] at h
    split at h
    next hmem =>
      cases h
      exact ⟨definition, rfl, .refl, hchain definition hmem⟩
    next hmem =>
      rcases Forecast.andThen_eq_error.mp h with hparts | ⟨parts, -, h⟩
      · obtain ⟨a, ha, hpart⟩ := Forecast.exists_of_collect_error hparts
        have hneeds : s.Needs definition a := ⟨t, ht, ha⟩
        have hchain' : ∀ b ∈ chain ++ [definition], Relation.TransGen s.Needs b a := by
          intro b hb
          rcases List.mem_append.mp hb with hb | hb
          · exact (hchain b hb).tail hneeds
          · exact List.mem_singleton.mp hb ▸ .single hneeds
        obtain ⟨d, he, hd, hcycle⟩ := ih (fun d hd => hready d (.head hneeds hd)) hchain' hpart
        exact ⟨d, he, .head hneeds hd, hcycle⟩
      · rcases Forecast.andThen_eq_error.mp h with hfields | ⟨fields, -, h⟩
        · exact absurd hfields (startUp_of_ready hstart n e)
        · cases h

theorem length_le_card (hn : chain.Nodup) : chain.length ≤ Nat.card DefinitionId := by
  have := Fintype.ofFinite DefinitionId
  rw [Nat.card_eq_fintype_card]
  exact hn.length_le_card

/-- A plan comes to an end, for the definitions of a chain are all different. -/
theorem plan_ne_none {bound : Nat}
    (hready : ∀ d, Relation.ReflTransGen s.Needs definition d →
      ∃ t, (s.registry.get d).1 = .ok t ∧ ∀ n, bound ≤ n → t.startUp s.initMethod n ≠ none)
    (hchain : chain.Nodup) (hn : Nat.card DefinitionId + bound < chain.length + n) :
    s.plan n allowPrototype chain definition ≠ none := by
  induction n generalizing allowPrototype chain definition with
  | zero =>
    have hle := length_le_card hchain
    omega
  | succ n ih =>
    obtain ⟨t, ht, hstart⟩ := hready definition .refl
    simp only [plan, ht, planSetUp]
    split
    · exact Option.some_ne_none _
    · split
      · exact Option.some_ne_none _
      next hmem =>
        have hchain' : (chain ++ [definition]).Nodup := by
          rw [← List.concat_eq_append]
          exact hchain.concat hmem
        have hlength : (chain ++ [definition]).length = chain.length + 1 := List.length_append
        have hle := length_le_card hchain'
        refine Forecast.andThen_ne_none (Forecast.collect_ne_none fun a ha => ?_) fun parts _ => ?_
        · exact ih (fun d hd => hready d (.head ⟨t, ht, ha⟩ hd)) hchain' (by omega)
        · refine Forecast.andThen_ne_none (hstart n (by omega)) fun fields _ => ?_
          exact Option.some_ne_none _

theorem exists_plan (hready : ∀ d, Relation.ReflTransGen s.Needs definition d → s.Ready d) :
    ∃ bound, ∀ n, bound ≤ n → s.plan n allowPrototype [] definition ≠ none := by
  have hbounds : ∀ d, ∃ bound, Relation.ReflTransGen s.Needs definition d →
      ∃ t, (s.registry.get d).1 = .ok t ∧ ∀ n, bound ≤ n → t.startUp s.initMethod n ≠ none := by
    intro d
    by_cases hd : Relation.ReflTransGen s.Needs definition d
    · obtain ⟨t, ht, -, bound, fields, hstart⟩ := hready d hd
      refine ⟨bound, fun _ => ⟨t, ht, fun n hn => ?_⟩⟩
      rw [(t.refines_startUp s.initMethod hn).eq_some hstart]
      exact Option.some_ne_none _
    · exact ⟨0, fun h => absurd h hd⟩
  choose boundOf hboundOf using hbounds
  obtain ⟨bound, hbound⟩ := (Set.finite_range boundOf).bddAbove
  refine ⟨Nat.card DefinitionId + bound + 1, fun n hn => ?_⟩
  have hstarts : ∀ d, Relation.ReflTransGen s.Needs definition d → ∃ t,
      (s.registry.get d).1 = .ok t ∧ ∀ n, bound ≤ n → t.startUp s.initMethod n ≠ none := by
    intro d hd
    obtain ⟨t, ht, hstart⟩ := hboundOf d hd
    exact ⟨t, ht, fun n hn => hstart n (Nat.le_trans (hbound ⟨d, rfl⟩) hn)⟩
  exact plan_ne_none hstarts List.nodup_nil (by simp; omega)

end Space

end Mudlib
