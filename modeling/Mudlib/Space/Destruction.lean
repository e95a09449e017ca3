import Mudlib.Space.Run
import Mudlib.Space.Attachment
/-!
Destruction: gated, and carried through an instance's whole attachment tree.

The members of the tree are marked first, then their hooks run, deepest first, then all are released.
A hook that fails does not stop it.
-/
set_option autoImplicit false

namespace Mudlib

/-- The operations that running bodies start again. They are given to the rules for bodies,
destructions and creations, which are then defined without recursion through them. -/
structure Engine where
  /-- Runs an implementation on an instance, with arguments, for a caller. -/
  call : InstanceId → Implementation → List Value → Principal → Run Value
  /-- Creates an instance for an owner, with or without the privilege flag, prototypes allowed or
  not. -/
  create : DefinitionId → Principal → Bool → Bool → Run InstanceId

namespace Space

def checkDestroy (s : Space) (id : InstanceId) (caller : Principal) : Except RuntimeError Unit :=
  match s.instance? id with
  | none => .error (.noSuchInstance id)
  | some i =>
    match i.state with
    | .destroyed => .error (.useAfterDestroy id)
    | .pendingDestroy => .error (.destroyInProgress id)
    | .live =>
      match s.authorize caller .destroy id i.owner with
      | .error e => .error e
      | .ok () =>
        if i.isPrototype then .error (.cannotDestroyPrototype id i.definition) else .ok ()

def markPending (s : Space) (ids : List InstanceId) : Space :=
  ids.foldl (fun s id => s.update id fun i => { i with state := .pendingDestroy }) s

def unlinkFromHost (s : Space) (id : InstanceId) : Space :=
  match s.host? id with
  | some host => s.unlinkAttachment host id
  | none => s

def releaseAll (s : Space) (ids : List InstanceId) : Space :=
  ids.foldl (fun s id => s.update id Instance.release) s

def hookOf? (s : Space) (id : InstanceId) (hook : String) : Option Implementation :=
  (s.instance? id).bind fun i => i.table.method? hook

end Space

namespace Engine

/-- Runs the hook of one instance, if its table has it; its failure is forgotten. -/
def runHook (engine : Engine) (hook : String) (id : InstanceId) : Run Unit := do
  match ← Run.ask fun s => s.hookOf? id hook with
  | none => return ()
  | some m =>
    Run.modify fun s => s.record (.hooked id)
    let _ ← Run.attempt (engine.call id m [] .system)
    return ()

/-- Runs the hooks of instances in order, if they are to run and the space has a hook. -/
def runHooks (engine : Engine) (withHooks : Bool) (order : List InstanceId) : Run Unit := do
  match ← Run.ask fun s => s.destroyHook.filter fun _ => withHooks with
  | none => return ()
  | some hook => Run.each (engine.runHook hook) order

def destroyTree (engine : Engine) (id : InstanceId) (withHooks : Bool) : Run Unit := do
  let order ← Run.search fun s => (s.attachmentTree id).map .ok
  Run.modify fun s => s.markPending order
  engine.runHooks withHooks order
  Run.modify fun s => (s.unlinkFromHost id).releaseAll order

def requestDestroy (engine : Engine) (id : InstanceId) (caller : Principal) : Run Unit := do
  Run.require fun s => s.checkDestroy id caller
  engine.destroyTree id true

end Engine

end Mudlib
