import Mudlib.Value.Basic
/-!
Native method bodies: lists of instructions over a few expressions, and how they are written as
values.

An object with exactly one member whose key is one of the special keys below is an expression; every
other value stands for itself, special forms inside it included. Strings that are missing from an
instruction count as empty, lists as empty, expressions as null.
-/
set_option autoImplicit false

namespace Mudlib

inductive Expr where
  | literal (v : Value)
  /-- The argument at this place, null when there are fewer. -/
  | arg (index : Nat)
  | arguments
  | this
  /-- The principal that invoked the method. -/
  | caller
  | method
  /-- The definition that contributed the running implementation. -/
  | definition
  /-- A variable of this run of the body, null when it is not set. -/
  | var (name : String)
  | field (name : String)
  /-- The number of instances that are not destroyed. -/
  | live
  | state (instanceOf : Expr)
  | host (instanceOf : Expr)
  | attachments (instanceOf : Expr)
  | list (items : List Expr)
  | equal (a b : Expr)
  deriving Repr, Inhabited

namespace Expr

def item (items : List Expr) (index : Nat) : Expr := items.getD index (.literal .null)

mutual

def ofValue : Value → Expr
  | .obj [(key, v)] =>
    match key with
    | "$arg" => v.asNat?.elim (.literal .null) .arg
    | "$args" => .arguments
    | "$this" => .this
    | "$caller" => .caller
    | "$method" => .method
    | "$definition" => .definition
    | "$var" => .var (v.asString?.getD "")
    | "$field" => .field (v.asString?.getD "")
    | "$live" => .live
    | "$state" => .state (ofValue v)
    | "$host" => .host (ofValue v)
    | "$attachments" => .attachments (ofValue v)
    | "$list" => .list (itemsOf v)
    | "$eq" => .equal (item (itemsOf v) 0) (item (itemsOf v) 1)
    | _ => .literal (.obj [(key, v)])
  | v => .literal v
termination_by structural v => v

def itemsOf : Value → List Expr
  | .list vs => ofValues vs
  | _ => []
termination_by structural v => v

def ofValues : List Value → List Expr
  | [] => []
  | v :: vs => ofValue v :: ofValues vs
termination_by structural vs => vs

end

end Expr

inductive Command where
  | bind
  | set (field : String)
  /-- Puts the value at the end of a list field. -/
  | append (field : String)
  | log
  /-- Runs the implementation bound to an unqualified ancestor call. -/
  | call (method : String)
  /-- Runs the implementation bound to a call into one ancestor's chain. -/
  | callOf (ancestor method : String)
  | invoke (target : Expr) (method : String)
  | spawn (path : String)
  | attach (target : Expr)
  | detach (target : Expr)
  | destroy (target : Expr)
  | fail (message : String)
  | unknown (name : String)
  deriving Repr, Inhabited

mutual

inductive Action where
  | command (c : Command)
  | finish
  /-- Runs a list of instructions and turns a failure into a value. -/
  | guard (body : List Instruction)
  /-- Runs one of two lists of instructions, as the value says. -/
  | branch (onTrue onFalse : List Instruction)

/-- Evaluates `value`, then `args`, then acts; a result goes to the variable if one is named. -/
inductive Instruction where
  | mk (value args : Expr) (var : Option String) (action : Action)

end

namespace Instruction

def value : Instruction → Expr
  | .mk value _ _ _ => value

def args : Instruction → Expr
  | .mk _ args _ _ => args

def var : Instruction → Option String
  | .mk _ _ var _ => var

def action : Instruction → Action
  | .mk _ _ _ action => action

structure Draft where
  verb : String := ""
  value : Expr := .literal .null
  args : Expr := .literal .null
  target : Expr := .literal .null
  var : Option String := none
  field : String := ""
  method : String := ""
  ancestor : String := ""
  path : String := ""
  message : String := ""
  body : List Instruction := []
  onTrue : List Instruction := []
  onFalse : List Instruction := []

def Draft.take (d : Draft) (key : String) (v : Value) (nested : List Instruction) : Draft :=
  let text := v.asString?.getD ""
  match key with
  | "do" => { d with verb := text }
  | "value" => { d with value := Expr.ofValue v }
  | "args" => { d with args := Expr.ofValue v }
  | "target" => { d with target := Expr.ofValue v }
  | "var" => { d with var := v.asString? }
  | "field" => { d with field := text }
  | "method" => { d with method := text }
  | "ancestor" => { d with ancestor := text }
  | "path" => { d with path := text }
  | "message" => { d with message := text }
  | "body" => { d with body := nested }
  | "then" => { d with onTrue := nested }
  | "else" => { d with onFalse := nested }
  | _ => d

def Draft.command (d : Draft) : Command :=
  match d.verb with
  | "let" => .bind
  | "set" => .set d.field
  | "append" => .append d.field
  | "log" => .log
  | "call" => .call d.method
  | "call_of" => .callOf d.ancestor d.method
  | "invoke" => .invoke d.target d.method
  | "spawn" => .spawn d.path
  | "attach" => .attach d.target
  | "detach" => .detach d.target
  | "destroy" => .destroy d.target
  | "fail" => .fail d.message
  | name => .unknown name

def Draft.action (d : Draft) : Action :=
  match d.verb with
  | "return" => .finish
  | "try" => .guard d.body
  | "if" => .branch d.onTrue d.onFalse
  | _ => .command d.command

def Draft.complete (d : Draft) : Instruction := .mk d.value d.args d.var d.action

mutual

def ofValue : Value → Instruction
  | .obj members => (draftOf members).complete
  | _ => ({} : Draft).complete
termination_by structural v => v

def draftOf : List (String × Value) → Draft
  | [] => {}
  | (key, v) :: rest => (draftOf rest).take key v (listOf v)
termination_by structural ms => ms

def listOf : Value → List Instruction
  | .list vs => ofValues vs
  | _ => []
termination_by structural v => v

def ofValues : List Value → List Instruction
  | [] => []
  | v :: vs => ofValue v :: ofValues vs
termination_by structural vs => vs

end

end Instruction

end Mudlib
