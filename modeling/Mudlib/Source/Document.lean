import Mudlib.ResolveError
import Mudlib.Toml.Document
import Mudlib.Definition.Decode
/-!
Definitions written as TOML documents.

A document has the optional keys `inherits`, `prototype`, `auxiliaries`, `fields` and `methods`, and
a method `calls`, `assign` and `returns`; other keys are refused there. The lists of ancestors and
auxiliaries stay as they are written, repetitions included. A method, a field or a call may also be
written as the list of its values, which may go on after them.
-/
set_option autoImplicit false

namespace Mudlib.Source

def documentKeys : List String := ["inherits", "prototype", "auxiliaries", "fields", "methods"]

def methodKeys : List String := ["calls", "assign", "returns"]

def listOf? {α : Type} (read : Value → Option α) (v : Value) : Option (List α) :=
  v.asList?.bind fun items => items.mapM read

def dictOf? {α : Type} (read : Value → Option α) (v : Value) : Option (Dict String α) :=
  v.asDict?.bind fun members =>
    (members.toList.mapM fun m => (read m.2).map fun a => (m.1, a)).map Dict.ofList

/-- Reads a field. Its type is a text: null stands for a number that is not finite here, so that an
object of nothing but null names no type. -/
def fieldOf? (v : Value) : Option FieldDecl := do
  let r ← Record.ofLeading? FieldDecl.keys v
  let type ← r.required "type" Value.asString?
  return ⟨← FieldType.ofName? type, (r.get? "default").getD .null⟩

/-- Reads a call. Null names no ancestor, for the same reason. -/
def callOf? (v : Value) : Option QualifiedCall := do
  let r ← Record.ofLeading? QualifiedCall.keys v
  if r.get? "ancestor" = some .null then none else QualifiedCall.ofRecord? r

def methodOf? (v : Value) : Option MethodDecl := do
  let r ← Record.ofLeading? methodKeys v
  if r.onlyKeys methodKeys then
    let calls ← r.withDefault "calls" [] (listOf? callOf?)
    let assign ← r.withDefault "assign" .empty Value.asDict?
    return ⟨.scripted ⟨assign, (r.get? "returns").getD .null⟩, calls⟩
  else none

def definition? (id : DefinitionId) (members : List (String × Value)) : Option Definition := do
  let r : Record := ⟨members⟩
  if r.onlyKeys documentKeys then
    let ancestors ← r.withDefault "inherits" [] (listOf? DefinitionId.ofValue?)
    let prototype ← r.withDefault "prototype" false Value.asBool?
    let auxiliaries ← r.withDefault "auxiliaries" [] (listOf? DefinitionId.ofValue?)
    let fields ← r.withDefault "fields" .empty (dictOf? fieldOf?)
    let methods ← r.withDefault "methods" .empty (dictOf? methodOf?)
    return { id, ancestors, fields, methods, prototype, auxiliaries }
  else none

def parse (id : DefinitionId) (text : String) : Except SourceFault Definition :=
  match (Toml.settledMembers? text).bind (definition? id) with
  | some d => .ok d
  | none => .error .unreadable

end Mudlib.Source
