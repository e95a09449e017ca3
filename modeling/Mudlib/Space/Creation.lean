import Mudlib.Space.Body
set_option autoImplicit false

namespace Mudlib

namespace Space

/-- The auxiliaries of a new instance: the base auxiliary, unless the instance's definition is or
inherits it, then those of its table that are not listed yet. -/
def auxiliariesOf (s : Space) (t : Table) : List DefinitionId :=
  Link.union ((s.baseAuxiliary.filter fun base => !t.isA base).toList) t.auxiliaries

def tableFor (s : Space) (definition : DefinitionId) : Except RuntimeError Table × Space :=
  let (result, registry) := s.registry.get definition
  (result.mapError .compile, { s with registry := registry })

def allocate (s : Space) (t : Table) (owner : Principal) (privileged : Bool) : Space :=
  { s with population := s.population.add (.create t owner privileged) }

def enterChain (s : Space) (definition : DefinitionId) : Space :=
  { s with chain := s.chain ++ [definition] }

def leaveChain (s : Space) : Space := { s with chain := s.chain.dropLast }

end Space

namespace Engine

def addAuxiliary (engine : Engine) (id : InstanceId) (auxiliary : DefinitionId) : Run Unit := do
  let made ← engine.create auxiliary (.object id) false false
  Run.modify fun s =>
    (s.record (.joined id made (s.state? id) (s.state? made) (s.host? made))).linkAttachment id made

/-- Attaches auxiliaries, then runs the init method with the owner as its caller. -/
def setUp (engine : Engine) (id : InstanceId) (t : Table) : Run Unit := do
  if ← Run.ask fun s => decide (t.id ∈ s.chain) then Run.fail (.auxiliaryCycle t.id)
  let auxiliaries ← Run.ask fun s => s.auxiliariesOf t
  Run.modify fun s => s.enterChain t.id
  let attached ← Run.attempt (Run.each (engine.addAuxiliary id) auxiliaries)
  Run.modify Space.leaveChain
  Run.require fun _ => attached
  match t.method? (← Run.ask Space.initMethod) with
  | none => return ()
  | some m =>
    let owner ← Run.ask fun s => ((s.instance? id).map Instance.owner).getD .system
    let _ ← engine.call id m [] owner
    return ()

def createInstance (engine : Engine) (definition : DefinitionId) (owner : Principal)
    (privileged allowPrototype : Bool) : Run InstanceId := do
  let t ← Run.step fun s => s.tableFor definition
  if t.prototype && !allowPrototype then Run.fail (.cannotInstantiatePrototype definition)
  let id ← Run.ask fun s => s.population.nextId
  Run.modify fun s => s.allocate t owner privileged
  match ← Run.attempt (engine.setUp id t) with
  | .ok () => return id
  | .error e =>
    engine.destroyTree id false
    Run.fail e

end Engine

end Mudlib
