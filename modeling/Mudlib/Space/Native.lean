import Mudlib.Space.Body
import Mudlib.Registry.Resolve
/-!
What native code may be.

A native body is known by its text, a list of instructions. What the text means is a choice: the
standard one carries the instructions out, but everything that is said about spaces holds of every
choice that keeps to `Conduct`, that is of all code that works through its context.
-/
set_option autoImplicit false

namespace Mudlib

/-- Computations that keep to what a body is allowed: it looks at the space as it likes, decides on
what it sees, asks the registry, and changes the rest only by the operations of its context. -/
inductive Conduct (engine : Engine) (ctx : Context) : {α : Type} → Run α → Prop where
  | look {α : Type} (question : Space → Except RuntimeError α) :
      Conduct engine ctx (Run.require question)
  | bind {α β : Type} {m : Run α} {f : α → Run β} :
      Conduct engine ctx m → (∀ a, Conduct engine ctx (f a)) → Conduct engine ctx (m >>= f)
  | attempt {α : Type} {m : Run α} : Conduct engine ctx m → Conduct engine ctx (Run.attempt m)
  | endless {α : Type} : Conduct engine ctx (Run.diverge : Run α)
  | log (v : Value) : Conduct engine ctx (Run.modify fun s => s.record (.logged v))
  | set (field : String) (v : Value) :
      Conduct engine ctx (Run.change fun s => s.assign ctx.this field v)
  | call (call : QualifiedCall) (args : List Value) :
      Conduct engine ctx (engine.callBound ctx call args)
  | invoke (id : InstanceId) (method : String) (args : List Value) :
      Conduct engine ctx (engine.invoke id method args ctx.self)
  | spawn (path : String) : Conduct engine ctx (engine.createPath path ctx.self)
  | attach (id : InstanceId) :
      Conduct engine ctx (Run.changeWithin fun s => s.attach ctx.this id ctx.self)
  | detach (id : InstanceId) :
      Conduct engine ctx (Run.change fun s => s.detach ctx.this id ctx.self)
  | destroy (id : InstanceId) : Conduct engine ctx (engine.requestDestroy id ctx.self)
  | registry (operation : Registry.Operation) :
      Conduct engine ctx (Run.modify fun s => { s with registry := s.registry.after operation })

namespace Conduct

variable {engine : Engine} {ctx : Context} {α : Type}

theorem pure (a : α) : Conduct engine ctx (Pure.pure a : Run α) := look fun _ => .ok a

theorem fail (e : RuntimeError) : Conduct engine ctx (Run.fail e : Run α) := look fun _ => .error e

theorem andReturn {m : Run Unit} (h : Conduct engine ctx m) (a : α) :
    Conduct engine ctx (do m; return a) := h.bind fun _ => pure a

theorem perform (vars : Variables) (v : Value) (args : List Value) (c : Command) :
    Conduct engine ctx (engine.perform ctx vars v args c) := by
  cases c with
  | bind => exact pure v
  | set field => exact (set field v).andReturn _
  | append field => exact (look _).bind fun _ => (set field _).andReturn _
  | log => exact (log v).andReturn _
  | call method => exact call _ args
  | callOf ancestor method =>
    simp only [Engine.perform]
    split
    · exact call _ args
    · exact fail _
  | invoke target method => exact (look _).bind fun id => invoke id method args
  | spawn path => exact (spawn path).bind fun id => pure _
  | attach target => exact (look _).bind fun id => (attach id).andReturn _
  | detach target => exact (look _).bind fun id => (detach id).andReturn _
  | destroy target => exact (look _).bind fun id => (destroy id).andReturn _
  | fail message => exact fail _
  | unknown name => exact fail _

mutual

theorem execute : (i : Instruction) → (vars : Variables) →
    Conduct engine ctx (engine.execute ctx i vars)
  | .mk value args var action, vars => by
    refine (look _).attempt.bind fun inputs => ?_
    cases inputs with
    | error e => exact pure _
    | ok found => exact act vars var found.1 found.2 action

theorem act (vars : Variables) (var : Option String) (v : Value) (args : List Value) :
    (a : Action) → Conduct engine ctx (engine.act ctx vars var v args a)
  | .finish => pure _
  | .branch onTrue onFalse => by
    unfold Engine.act
    split
    · exact executeAll onFalse vars
    · exact executeAll onTrue vars
  | .guard body => by
    refine (executeAll body vars).bind fun left => ?_
    obtain ⟨outcome, vars⟩ := left
    cases outcome <;> exact pure _
  | .command c => by
    refine (perform vars v args c).attempt.bind fun result => ?_
    cases result <;> exact pure _

theorem executeAll : (is : List Instruction) → (vars : Variables) →
    Conduct engine ctx (engine.executeAll ctx is vars)
  | [], vars => pure _
  | i :: is, vars => by
    refine (execute i vars).bind fun left => ?_
    obtain ⟨outcome, vars⟩ := left
    cases outcome with
    | next => exact executeAll is vars
    | returned v => exact pure _
    | failed e => exact pure _

end

theorem runNative (code : List Instruction) : Conduct engine ctx (engine.runNative ctx code) := by
  refine (executeAll code .empty).bind fun left => ?_
  obtain ⟨outcome, vars⟩ := left
  cases outcome with
  | next => exact pure _
  | returned v => exact pure _
  | failed e => exact fail e

end Conduct

class Natives where
  run : Engine → Context → List Instruction → Run Value
  conduct : ∀ (engine : Engine) (ctx : Context) (code : List Instruction),
    Conduct engine ctx (run engine ctx code)

instance Natives.standard : Natives := ⟨Engine.runNative, fun _ _ => Conduct.runNative⟩

def Engine.runImplementation [Natives] (engine : Engine) (ctx : Context) : Run Value := do
  Run.modify fun s =>
    s.record (.entered ctx.this (s.state? ctx.this) ctx.implementation.owner
      ctx.implementation.name)
  match ctx.implementation.body with
  | .native code => Natives.run engine ctx code
  | .scripted body => engine.runScripted ctx body

end Mudlib
