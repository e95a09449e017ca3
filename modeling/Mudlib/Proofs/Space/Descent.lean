import Mudlib.Proofs.Registry.Contributions
import Mudlib.Proofs.Space.Sequence
/-!
Lines of descent: definitions that inherit from one another, one ancestor each, with a method that
every one of them overrides and in which every one but the first calls the inherited one.

The method of the youngest is the bodies of the whole line in one sequence, the oldest first. What is
assigned last counts, so the youngest body that assigns a field decides on it.
-/
set_option autoImplicit false

namespace Mudlib

namespace Registry

/-- The body that a definition gives to a method, and those that it inherits, youngest first. -/
inductive Descent (sources : DefinitionId → Option Definition) (method : String) :
    DefinitionId × ScriptedBody → List (DefinitionId × ScriptedBody) → Prop where
  | first {id : DefinitionId} {d : Definition} {body : ScriptedBody} :
      sources id = some d → d.ancestors = [] →
      d.methods.get? method = some ⟨.scripted body, []⟩ → Descent sources method (id, body) []
  | next {id : DefinitionId} {d : Definition} {body : ScriptedBody}
      {parent : DefinitionId × ScriptedBody} {above : List (DefinitionId × ScriptedBody)}
      {call : QualifiedCall} :
      sources id = some d → d.ancestors = [parent.1] →
      d.methods.get? method = some ⟨.scripted body, [call]⟩ → call.method = method →
      Descent sources method parent above →
      Descent sources method (id, body) (parent :: above)

/-- An implementation that runs these bodies: it starts them in this order, and each of them assigns
its fields once those after it have. -/
structure Runs (m : Implementation) (method : String) (line : List (DefinitionId × ScriptedBody)) :
    Prop where
  scripted : m.Scripted
  starts : m.starts.map (fun n => (n.owner, n.name)) = line.map fun e => (e.1, method)
  writes : m.writes = line.reverse.flatMap fun e => e.2.assign.toList

variable {r : Registry} {method : String} {t : Table}
variable {head : DefinitionId × ScriptedBody} {above : List (DefinitionId × ScriptedBody)}

theorem Runs.caller {target : Implementation} (h : Runs target method above) (stamp : Nat)
    (id : DefinitionId) (body : ScriptedBody) (call : QualifiedCall) :
    Runs (.mk stamp id method (.scripted body) [(call, target)]) method ((id, body) :: above) where
  scripted := .mk (List.forall_mem_singleton.mpr h.scripted)
  starts := by
    rw [Implementation.starts_mk, List.flatMap_singleton, List.map_cons, h.starts, List.map_cons]
    rfl
  writes := by
    rw [Implementation.writes_mk, List.flatMap_singleton, h.writes, List.reverse_cons,
      List.flatMap_append, List.flatMap_singleton]
    rfl

theorem runs_alone (stamp : Nat) (id : DefinitionId) (method : String) (body : ScriptedBody) :
    Runs (.mk stamp id method (.scripted body) []) method [(id, body)] where
  scripted := .mk (List.forall_mem_nil _)
  starts := by
    rw [Implementation.starts_mk]
    rfl
  writes := by
    rw [Implementation.writes_mk]
    simp [Implementation.assignments, Implementation.body]

theorem Coherent.own_method (h : Coherent r) {id : DefinitionId} {d : Definition} {decl : MethodDecl}
    (hd : r.effective? id = some d) (hdecl : d.methods.get? method = some decl)
    (ht : r.cached? id = some t) : ∃ parents calls,
      List.Forall₂ (fun a p => r.cached? a = some p) d.ancestors parents ∧
      List.Forall₂ (fun call b => (Link.resolveQualifiedCall id call parents r.policy).map
        (Prod.mk call) = .ok b) decl.calls calls ∧
      t.method? method = some (.mk t.stamp id method decl.body calls) := by
  obtain ⟨e, parents, he, rfl, hparents, hlink⟩ := h.effective_of_cached ht
  obtain rfl := Option.some.inj (hd.symm.trans he)
  have hnodup : ∀ p ∈ parents, (Link.ownersOf p.methods method).Nodup := by
    intro p hp
    obtain ⟨a, -, hap⟩ := exists_mem_of_forall₂ hparents hp
    exact (h.gathered hap method).nodup
  rcases method?_link hlink method hnodup with ⟨hnone, -⟩ | ⟨decl', m, hdecl', hm, hmethod⟩
  · rw [hdecl] at hnone
    cases hnone
  · obtain rfl := Option.some.inj (hdecl.symm.trans hdecl')
    obtain ⟨calls, hcalls, rfl⟩ := Link.linkMethod_eq_ok.mp hm
    exact ⟨parents, calls, hparents, hcalls, hmethod⟩

theorem Coherent.descended (h : Coherent r) (hline : Descent r.effective? method head above)
    (ht : r.cached? head.1 = some t) :
    ∃ m, t.method? method = some m ∧ Runs m method (head :: above) := by
  induction hline generalizing t with
  | first hd hancestors hdecl =>
    obtain ⟨parents, calls, -, hcalls, hmethod⟩ := h.own_method hd hdecl ht
    cases hcalls
    exact ⟨_, hmethod, runs_alone _ _ _ _⟩
  | next hd hancestors hdecl hcall _ ih =>
    obtain ⟨parents, calls, hparents, hcalls, hmethod⟩ := h.own_method hd hdecl ht
    rw [hancestors] at hparents
    obtain ⟨p, _, hp, hnil, rfl⟩ := List.forall₂_cons_left_iff.mp hparents
    cases hnil
    obtain ⟨m, hm, hruns⟩ := ih hp
    obtain ⟨b, _, hbound, hnil, rfl⟩ := List.forall₂_cons_left_iff.mp hcalls
    cases hnil
    obtain ⟨target, htarget, rfl⟩ := map_eq_ok.mp hbound
    -- the one ancestor is the only one that the call can be bound to
    obtain ⟨q, hq, hfound, -⟩ := Link.resolveQualifiedCall_eq_ok htarget
    rw [List.mem_singleton.mp hq, hcall, hm] at hfound
    cases hfound
    exact ⟨_, hmethod, hruns.caller _ _ _ _⟩

end Registry

namespace Space

theorem get?_writeAll_toList (d fields : Dict String Value) (field : String) :
    (writeAll d.toList fields).get? field = (d.get? field).or (fields.get? field) := by
  have h := Dict.get?_foldl_insert (fun _ v => v) d.toList d.nodup_keys fields field
  rw [show (fun v : Value => v) = id from rfl, Option.map_id_apply] at h
  exact h

/-- The youngest body that assigns a field decides on it. -/
theorem get?_writeAll_line (line : List (DefinitionId × ScriptedBody)) (fields : Dict String Value)
    (field : String) :
    (writeAll (line.reverse.flatMap fun e => e.2.assign.toList) fields).get? field =
      (line.findSome? fun e => e.2.assign.get? field).or (fields.get? field) := by
  induction line with
  | nil => rfl
  | cons e line ih =>
    rw [List.reverse_cons, List.flatMap_append, List.flatMap_singleton, writeAll_append,
      get?_writeAll_toList, ih, List.findSome?_cons]
    cases e.2.assign.get? field <;> rfl

end Space

end Mudlib
