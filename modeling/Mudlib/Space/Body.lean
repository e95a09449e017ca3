import Mudlib.Space.Destruction
set_option autoImplicit false

namespace Mudlib

structure Context where
  this : InstanceId
  caller : Principal
  implementation : Implementation
  args : List Value

abbrev Variables := Dict String Value

namespace Context

def self (ctx : Context) : Principal := .object ctx.this

def raised (ctx : Context) (message : String) : RuntimeError :=
  .raised ctx.implementation.name message

def target (ctx : Context) (v : Value) : Except RuntimeError InstanceId :=
  match InstanceId.ofValue? v with
  | some id => .ok id
  | none => .error (ctx.raised "not an instance")

end Context

namespace Expr

def ofInstance (s : Space) (id : InstanceId) (f : Instance → Value) : Value :=
  (s.instance? id).elim .null f

mutual

def eval (ctx : Context) (vars : Variables) (s : Space) : Expr → Except RuntimeError Value
  | .literal v => .ok v
  | .arg index => .ok (ctx.args.getD index .null)
  | .arguments => .ok (.list ctx.args)
  | .this => .ok ctx.this.toValue
  | .caller => .ok ctx.caller.toValue
  | .method => .ok (.str ctx.implementation.name)
  | .definition => .ok (.str ctx.implementation.owner.text)
  | .var name => .ok ((vars.get? name).getD .null)
  | .field name => s.getField ctx.this name
  | .live => .ok (.int s.liveCount)
  | .state e => do
    let id ← ctx.target (← eval ctx vars s e)
    return ofInstance s id fun i => .str i.state.name
  | .host e => do
    let id ← ctx.target (← eval ctx vars s e)
    return ofInstance s id Instance.hostValue
  | .attachments e => do
    let id ← ctx.target (← eval ctx vars s e)
    return ofInstance s id Instance.attachmentsValue
  | .list items => do return .list (← evalAll ctx vars s items)
  | .equal a b => do
    let x ← eval ctx vars s a
    let y ← eval ctx vars s b
    return .bool (x.same y)
termination_by structural e => e

def evalAll (ctx : Context) (vars : Variables) (s : Space) :
    List Expr → Except RuntimeError (List Value)
  | [] => .ok []
  | e :: es => do
    let v ← eval ctx vars s e
    let vs ← evalAll ctx vars s es
    return v :: vs
termination_by structural es => es

end

end Expr

inductive Outcome where
  | next
  | returned (v : Value)
  | failed (e : RuntimeError)

namespace Engine

def invoke (engine : Engine) (id : InstanceId) (method : String) (args : List Value)
    (caller : Principal) : Run Value := do
  let found ← Run.search fun s => s.dispatch id method
  engine.call found.1 found.2 args caller

def createPath (engine : Engine) (path : String) (owner : Principal) : Run InstanceId :=
  match DefinitionId.ofPath? path with
  | .ok id => engine.create id owner false false
  | .error fault => Run.fail (.compile (.invalidPath fault))

def callBound (engine : Engine) (ctx : Context) (call : QualifiedCall) (args : List Value) :
    Run Value :=
  match ctx.implementation.bound? call with
  | some target => engine.call ctx.this target args ctx.caller
  | none => Run.fail (.unboundAncestorCall ctx.implementation.name call)

def perform (engine : Engine) (ctx : Context) (vars : Variables) (v : Value) (args : List Value) :
    Command → Run Value
  | .bind => return v
  | .set field => do
    Run.change fun s => s.assign ctx.this field v
    return .null
  | .append field => do
    let held ← Run.require fun s => s.getField ctx.this field
    let longer : Value := .list ((held.asList?).getD [] ++ [v])
    Run.change fun s => s.assign ctx.this field longer
    return .null
  | .log => do
    Run.modify fun s => s.record (.logged v)
    return .null
  | .call method => engine.callBound ctx ⟨none, method⟩ args
  | .callOf ancestor method =>
    match DefinitionId.ofPath? ancestor with
    | .ok id => engine.callBound ctx ⟨some id, method⟩ args
    | .error fault => Run.fail (.compile (.invalidPath fault))
  | .invoke target method => do
    let id ← targetOf target
    engine.invoke id method args ctx.self
  | .spawn path => do
    let id ← engine.createPath path ctx.self
    return id.toValue
  | .attach target => do
    let id ← targetOf target
    Run.changeWithin fun s => s.attach ctx.this id ctx.self
    return .null
  | .detach target => do
    let id ← targetOf target
    Run.change fun s => s.detach ctx.this id ctx.self
    return .null
  | .destroy target => do
    let id ← targetOf target
    engine.requestDestroy id ctx.self
    return .null
  | .fail message => Run.fail (ctx.raised message)
  | .unknown name => Run.fail (ctx.raised ("bad do " ++ name))
where
  targetOf (target : Expr) : Run InstanceId :=
    Run.require fun s => do ctx.target (← target.eval ctx vars s)

def isFalse : Value → Bool
  | .null => true
  | .bool false => true
  | _ => false

def store (vars : Variables) (var : Option String) (v : Value) : Variables :=
  match var with
  | some name => vars.insert name v
  | none => vars

mutual

def execute (engine : Engine) (ctx : Context) :
    Instruction → Variables → Run (Outcome × Variables)
  | .mk value args var action, vars => do
    let inputs ← Run.attempt (Run.require fun s => do
      let v ← value.eval ctx vars s
      let a ← args.eval ctx vars s
      return (v, (a.asList?).getD []))
    match inputs with
    | .error e => return (.failed e, vars)
    | .ok (v, args) => act engine ctx vars var v args action
termination_by structural i => i

def act (engine : Engine) (ctx : Context) (vars : Variables) (var : Option String) (v : Value)
    (args : List Value) : Action → Run (Outcome × Variables)
  | .finish => return (.returned v, vars)
  | .branch onTrue onFalse =>
    if isFalse v then executeAll engine ctx onFalse vars else executeAll engine ctx onTrue vars
  | .guard body => do
    let (outcome, vars) ← executeAll engine ctx body vars
    match outcome with
    | .next => return (.next, store vars var .null)
    | .failed e => return (.next, store vars var e.report)
    | .returned r => return (.returned r, vars)
  | .command c => do
    match ← Run.attempt (engine.perform ctx vars v args c) with
    | .ok result => return (.next, store vars var result)
    | .error e => return (.failed e, vars)
termination_by structural a => a

def executeAll (engine : Engine) (ctx : Context) :
    List Instruction → Variables → Run (Outcome × Variables)
  | [], vars => return (.next, vars)
  | i :: is, vars => do
    let (outcome, vars) ← execute engine ctx i vars
    match outcome with
    | .next => executeAll engine ctx is vars
    | outcome => return (outcome, vars)
termination_by structural is => is

end

def runNative (engine : Engine) (ctx : Context) (code : List Instruction) : Run Value := do
  let (outcome, _) ← engine.executeAll ctx code .empty
  match outcome with
  | .next => return .null
  | .returned v => return v
  | .failed e => Run.fail e

def runScripted (engine : Engine) (ctx : Context) (body : ScriptedBody) : Run Value := do
  Run.each (fun b => do
    let _ ← engine.call ctx.this b.2 ctx.args ctx.caller) ctx.implementation.calls
  Run.each (fun a => Run.change fun s => s.assign ctx.this a.1 a.2) body.assign.toList
  return body.returns

end Engine

end Mudlib
