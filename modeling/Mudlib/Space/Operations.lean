import Mudlib.Space.Creation
import Mudlib.Space.Native
/-!
The operations on a space.

Bodies start methods and creations, which run bodies. How deep that may go is bounded by the first
argument of every operation that can run one; operations that run none have no bound.
-/
set_option autoImplicit false

namespace Mudlib.Space

variable [Natives]

mutual

/-- Runs an implementation on an instance, at most `bound` calls and creations deep. -/
def callWithin (bound : Nat) (id : InstanceId) (m : Implementation) (args : List Value)
    (caller : Principal) : Run Value :=
  match bound with
  | 0 => Run.diverge
  | n + 1 => Engine.runImplementation ⟨callWithin n, createWithin n⟩ ⟨id, caller, m, args⟩
termination_by structural bound

def createWithin (bound : Nat) (definition : DefinitionId) (owner : Principal)
    (privileged allowPrototype : Bool) : Run InstanceId :=
  match bound with
  | 0 => Run.diverge
  | n + 1 =>
    Engine.createInstance ⟨callWithin n, createWithin n⟩ definition owner privileged allowPrototype
termination_by structural bound

end

def engine (bound : Nat) : Engine := ⟨callWithin bound, createWithin bound⟩

def instantiate (bound : Nat) (definition : DefinitionId) (owner : Principal) : Run InstanceId :=
  (engine bound).create definition owner false false

def instantiatePath (bound : Nat) (path : String) (owner : Principal) : Run InstanceId :=
  (engine bound).createPath path owner

/-- Creates an instance with the privilege flag, which cannot be set later; the caller has to be
privileged. -/
def instantiatePrivileged (bound : Nat) (definition : DefinitionId) (owner caller : Principal) :
    Run InstanceId := do
  Run.require fun s => s.requirePrivileged caller definition
  (engine bound).create definition owner true false

def template? (s : Space) (definition : DefinitionId) : Option InstanceId :=
  (s.prototypes.get? definition).filter fun id => (s.instance? id).any Instance.isLive

def loadPrototype (bound : Nat) (definition : DefinitionId) (caller : Principal) :
    Run InstanceId := do
  Run.require fun s => s.requirePrivileged caller definition
  match ← Run.ask fun s => s.template? definition with
  | some id => return id
  | none =>
    let id ← (engine bound).create definition caller false true
    Run.modify fun s => { s with prototypes := s.prototypes.insert definition id }
    return id

def invoke (bound : Nat) (id : InstanceId) (method : String) (args : List Value)
    (caller : Principal) : Run Value :=
  (engine bound).invoke id method args caller

def requestDestroy (bound : Nat) (id : InstanceId) (caller : Principal) : Run Unit :=
  (engine bound).requestDestroy id caller

inductive Request where
  | instantiate (definition : DefinitionId) (owner : Principal)
  | instantiatePrivileged (definition : DefinitionId) (owner caller : Principal)
  | loadPrototype (definition : DefinitionId) (caller : Principal)
  | invoke (id : InstanceId) (method : String) (args : List Value) (caller : Principal)
  | setField (id : InstanceId) (field : String) (v : Value) (caller : Principal)
  | attach (host auxiliary : InstanceId) (caller : Principal)
  | detach (host auxiliary : InstanceId) (caller : Principal)
  | destroy (id : InstanceId) (caller : Principal)
  | registry (operation : Registry.Operation)

/-- Carries a request out; its result is dropped. -/
def perform (bound : Nat) : Request → Run Unit
  | .instantiate definition owner => do let _ ← instantiate bound definition owner
  | .instantiatePrivileged definition owner caller => do
    let _ ← instantiatePrivileged bound definition owner caller
  | .loadPrototype definition caller => do let _ ← loadPrototype bound definition caller
  | .invoke id method args caller => do let _ ← invoke bound id method args caller
  | .setField id field v caller => Run.change fun s => s.setField id field v caller
  | .attach host auxiliary caller => Run.changeWithin fun s => s.attach host auxiliary caller
  | .detach host auxiliary caller => Run.change fun s => s.detach host auxiliary caller
  | .destroy id caller => requestDestroy bound id caller
  | .registry operation => Run.modify fun s => { s with registry := s.registry.after operation }

/-- The requests, each of which ended in one way or the other, lead from one space to another. -/
inductive Served : Space → List Request → Space → Prop where
  | nil (s : Space) : Served s [] s
  | cons {s s₁ s' : Space} {bound : Nat} {request : Request} {requests : List Request}
      {out : Except RuntimeError Unit} : perform bound request s = some (out, s₁) →
      Served s₁ requests s' → Served s (request :: requests) s'

def serve (bound : Nat) : List Request → Space → Option Space
  | [], s => some s
  | request :: requests, s => (perform bound request s).bind fun r => serve bound requests r.2

theorem served_of_serve {bound : Nat} {requests : List Request} {s s' : Space}
    (h : serve bound requests s = some s') : Served s requests s' := by
  induction requests generalizing s with
  | nil =>
    cases h
    exact .nil _
  | cons request requests ih =>
    obtain ⟨⟨out, s₁⟩, hone, hrest⟩ := Option.bind_eq_some_iff.mp h
    exact .cons hone (ih hrest)

end Mudlib.Space
