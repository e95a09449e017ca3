import Mudlib.Instance
import Mudlib.Permission
import Mudlib.ResolveError
set_option autoImplicit false

namespace Mudlib

inductive RuntimeError where
  | noSuchMethod (id : InstanceId) (method : String)
  | useAfterDestroy (id : InstanceId)
  /-- The caller does not control the instance. -/
  | unauthorized (target : InstanceId) (why : Refusal)
  /-- The operation on the definition is for privileged callers. -/
  | unprivileged (definition : DefinitionId) (caller : Principal)
  | cannotDestroyPrototype (id : InstanceId) (definition : DefinitionId)
  | cannotInstantiatePrototype (definition : DefinitionId)
  | noSuchInstance (id : InstanceId)
  | noSuchField (id : InstanceId) (field : String)
  | typeMismatch (id : InstanceId) (field : String) (expected : FieldType)
  | alreadyAttached (auxiliary host : InstanceId)
  | notAttached (auxiliary host : InstanceId)
  | attachmentCycle (auxiliary host : InstanceId)
  | notLive (id : InstanceId) (state : LifecycleState)
  | destroyInProgress (id : InstanceId)
  | prototypeAttachment (id : InstanceId)
  | auxiliaryCycle (definition : DefinitionId)
  | unboundAncestorCall (method : String) (call : QualifiedCall)
  | raised (method message : String)
  | compile (cause : ResolveError)
  deriving DecidableEq, Repr

namespace RuntimeError

def kind : RuntimeError → String
  | .noSuchMethod .. => "NoSuchMethod"
  | .useAfterDestroy _ => "UseAfterDestroy"
  | .unauthorized .. => "Unauthorized"
  | .unprivileged .. => "Unauthorized"
  | .cannotDestroyPrototype .. => "CannotDestroyPrototype"
  | .cannotInstantiatePrototype _ => "CannotInstantiatePrototype"
  | .noSuchInstance _ => "NoSuchInstance"
  | .noSuchField .. => "NoSuchField"
  | .typeMismatch .. => "TypeMismatch"
  | .alreadyAttached .. => "AlreadyAttached"
  | .notAttached .. => "NotAttached"
  | .attachmentCycle .. => "AttachmentCycle"
  | .notLive .. => "NotLive"
  | .destroyInProgress _ => "DestroyInProgress"
  | .prototypeAttachment _ => "PrototypeAttachment"
  | .auxiliaryCycle _ => "AuxiliaryCycle"
  | .unboundAncestorCall .. => "UnboundAncestorCall"
  | .raised .. => "Method"
  | .compile _ => "Compile"

def unauthorizedText (target reason : String) : String :=
  "not authorized on " ++ target ++ ": " ++ reason

def message : RuntimeError → String
  | .noSuchMethod id method => id.text ++ " has no method '" ++ method ++ "'"
  | .useAfterDestroy id => id.text ++ " has been destroyed"
  | .unauthorized target why => unauthorizedText target.text why.reason
  | .unprivileged definition caller =>
    unauthorizedText definition.text (caller.text ++ " is not privileged")
  | .cannotDestroyPrototype id definition =>
    id.text ++ " is a prototype of " ++ definition.text ++ " and cannot be destroyed"
  | .cannotInstantiatePrototype definition =>
    definition.text ++ " is a prototype and cannot be instantiated"
  | .noSuchInstance id => "no such instance " ++ id.text
  | .noSuchField id field => id.text ++ " has no field '" ++ field ++ "'"
  | .typeMismatch id field expected =>
    "field '" ++ field ++ "' of " ++ id.text ++ " expects " ++ expected.name
  | .alreadyAttached auxiliary host => auxiliary.text ++ " is already attached to " ++ host.text
  | .notAttached auxiliary host => auxiliary.text ++ " is not attached to " ++ host.text
  | .attachmentCycle auxiliary host =>
    "attaching " ++ auxiliary.text ++ " to " ++ host.text ++ " would create a cycle"
  | .notLive id state => id.text ++ " is " ++ state.text
  | .destroyInProgress id => id.text ++ " is already being destroyed"
  | .prototypeAttachment id => id.text ++ " is a prototype and cannot be attached"
  | .auxiliaryCycle definition => definition.text ++ " is reachable from its own auxiliaries"
  | .unboundAncestorCall method call =>
    "'" ++ method ++ "' did not declare ancestor call " ++ call.text
  | .raised method message => method ++ ": " ++ message
  | .compile cause => cause.message

/-- The failure beneath this one that has a text of its own. -/
def resolveCause? : RuntimeError → Option ResolveError
  | .compile cause => some cause
  | _ => none

def report (e : RuntimeError) : Value :=
  .ofMembers ([("error", .str e.kind), ("message", .str e.message)] ++
    (e.resolveCause?.map fun cause => ("cause", Value.str cause.kind)).toList)

end RuntimeError

def ResolveError.report (e : ResolveError) : Value :=
  .ofMembers [("error", .str e.kind), ("message", .str e.message)]

end Mudlib
