import Mudlib.RuntimeError
import Mudlib.Registry.Resolve
import Mudlib.Config
set_option autoImplicit false

namespace Mudlib

inductive Event where
  | logged (v : Value)
  /-- An implementation started on an instance that was in this state. -/
  | entered (this : InstanceId) (state : Option LifecycleState) (owner : DefinitionId)
      (method : String)
  /-- A destruction is about to run its hook on an instance. -/
  | hooked (target : InstanceId)
  /-- A creation is about to attach an auxiliary to its host; the states that both are in, and the
  host that the auxiliary has already. -/
  | joined (host auxiliary : InstanceId) (hostState auxiliaryState : Option LifecycleState)
      (former : Option InstanceId)
  deriving DecidableEq, Repr

structure Space where
  registry : Registry
  population : Population
  prototypes : Dict DefinitionId InstanceId
  initMethod : String
  destroyHook : Option String
  baseAuxiliary : Option DefinitionId
  /-- Definitions whose instances are attaching their auxiliaries, outermost first. -/
  chain : List DefinitionId
  journal : List Event

namespace Space

def ofConfig? (registry : Registry) (config : Config) : Except ResolveError Space :=
  let space := fun base =>
    (⟨registry, .empty, .empty, config.initMethod, config.destroyHook, base, [], []⟩ : Space)
  match config.baseAuxiliary with
  | none => .ok (space none)
  | some path =>
    match DefinitionId.ofPath? path with
    | .ok id => .ok (space (some id))
    | .error fault => .error (.invalidPath fault)

def instance? (s : Space) (id : InstanceId) : Option Instance := s.population.get? id

def state? (s : Space) (id : InstanceId) : Option LifecycleState :=
  (s.instance? id).map Instance.state

def host? (s : Space) (id : InstanceId) : Option InstanceId := (s.instance? id).bind Instance.host

def liveCount (s : Space) : Nat := s.population.liveCount

def update (s : Space) (id : InstanceId) (f : Instance → Instance) : Space :=
  { s with population := s.population.update id f }

def record (s : Space) (e : Event) : Space := { s with journal := e :: s.journal }

theorem instance?_update (s : Space) (id id' : InstanceId) (f : Instance → Instance) :
    (s.update id f).instance? id' =
      if id' = id then (s.instance? id').map f else s.instance? id' :=
  Population.get?_update s.population id id' f

@[simp] theorem instance?_record (s : Space) (e : Event) (id : InstanceId) :
    (s.record e).instance? id = s.instance? id := rfl

def invokable (s : Space) (id : InstanceId) : Except RuntimeError Instance :=
  match s.instance? id with
  | none => .error (.noSuchInstance id)
  | some i => if i.isDestroyed then .error (.useAfterDestroy id) else .ok i

def live (s : Space) (id : InstanceId) : Except RuntimeError Instance := do
  let i ← s.invokable id
  if i.isLive then return i else throw (.notLive id i.state)

/-- Whether a caller bypasses ownership checks: the system, accounts from wizard on, and instances
with the privilege flag that are not destroyed. -/
def isPrivileged (s : Space) : Principal → Bool
  | .system => true
  | .account _ level => level.isPrivileged
  | .object id => (s.instance? id).any fun i => !i.isDestroyed && i.privileged

def authorize (s : Space) (caller : Principal) (deed : Deed) (target : InstanceId)
    (owner : Principal) : Except RuntimeError Unit :=
  match Permission.refusal? caller (s.isPrivileged caller) deed target owner with
  | none => .ok ()
  | some why => .error (.unauthorized target why)

def requirePrivileged (s : Space) (caller : Principal) (definition : DefinitionId) :
    Except RuntimeError Unit :=
  if s.isPrivileged caller then .ok () else .error (.unprivileged definition caller)

def typeOf (s : Space) (id : InstanceId) : Except RuntimeError DefinitionId :=
  (s.invokable id).map Instance.definition

def isA (s : Space) (id : InstanceId) (ancestor : DefinitionId) : Except RuntimeError Bool :=
  (s.invokable id).map fun i => i.table.isA ancestor

def getField (s : Space) (id : InstanceId) (field : String) : Except RuntimeError Value := do
  let i ← s.invokable id
  match i.fields.get? field with
  | some v => return v
  | none => throw (.noSuchField id field)

def assign (s : Space) (id : InstanceId) (field : String) (v : Value) :
    Except RuntimeError Space := do
  let i ← s.invokable id
  match i.table.field? field with
  | none => throw (.noSuchField id field)
  | some slot =>
    if slot.type.accepts v then
      return s.update id fun i => { i with fields := i.fields.insert field v }
    else throw (.typeMismatch id field slot.type)

def setField (s : Space) (id : InstanceId) (field : String) (v : Value) (caller : Principal) :
    Except RuntimeError Space := do
  let i ← s.invokable id
  s.authorize caller .modify id i.owner
  s.assign id field v

def describeAll (s : Space) : List Value :=
  s.population.ids.filterMap fun id => (s.instance? id).map (Instance.describe id)

end Space

end Mudlib
