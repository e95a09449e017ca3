import Mudlib.Definition.Fingerprint
import Mudlib.Value.Record
/-!
Reading definitions and their parts from values.

A definition document is an object with the path, the lists of ancestors and auxiliaries, the
prototype flag, the fields by name and the methods as a list. Its parts go through the builder in
this order, and the first failure is reported.
-/
set_option autoImplicit false

namespace Mudlib

def DefinitionId.ofValue? (v : Value) : Option DefinitionId :=
  v.asString?.bind fun path => (DefinitionId.ofPath? path).toOption

def FieldType.ofValue? (v : Value) : Option FieldType := v.asCase?.bind FieldType.ofName?

namespace FieldDecl

def keys : List String := ["type", "default"]

def ofValue? (v : Value) : Option FieldDecl := do
  let r ← Record.ofValue? keys v
  return ⟨← r.required "type" FieldType.ofValue?, (r.get? "default").getD .null⟩

end FieldDecl

namespace QualifiedCall

def keys : List String := ["ancestor", "method"]

def ofRecord? (r : Record) : Option QualifiedCall := do
  return ⟨← r.optional "ancestor" DefinitionId.ofValue?, ← r.required "method" Value.asString?⟩

def ofValue? (v : Value) : Option QualifiedCall := (Record.ofValue? keys v).bind ofRecord?

end QualifiedCall

def ScriptedBody.ofValue? (v : Value) : Option ScriptedBody := do
  let r ← Record.ofValue? ["assign", "returns"] v
  return ⟨← r.withDefault "assign" .empty Value.asDict?, (r.get? "returns").getD .null⟩

inductive DocumentError where
  /-- A text that has to be there is not. -/
  | missingString (field : String)
  | invalidPath (fault : PathError)
  | malformed
  deriving DecidableEq, Repr

namespace Definition

def items (v : Value) (key : String) : List Value := ((v.getD key).asList?).getD []

def requireString (v : Value) (key : String) : Except DocumentError String :=
  match (v.getD key).asString? with
  | some text => .ok text
  | none => .error (.missingString key)

def requireId (path : String) : Except DocumentError DefinitionId :=
  (DefinitionId.ofPath? path).mapError .invalidPath

def idOfItem (v : Value) : Except DocumentError DefinitionId := requireId (v.asString?.getD "")

def callOfDocument (v : Value) : Except DocumentError QualifiedCall := do
  let method ← requireString v "method"
  match (v.getD "ancestor").asString? with
  | some path => return ⟨some (← requireId path), method⟩
  | none => return ⟨none, method⟩

def bodyOfDocument (v : Value) : Body :=
  match v.getD "native" with
  | .list code => .native (Instruction.ofValues code)
  | _ => .scripted ⟨((v.getD "assign").asDict?).getD .empty, v.getD "returns"⟩

def methodOfDocument (v : Value) : Except DocumentError (String × MethodDecl) := do
  let name ← requireString v "name"
  let calls ← (items v "calls").mapM callOfDocument
  return (name, ⟨bodyOfDocument v, calls⟩)

def fieldOfDocument (m : String × Value) : Except DocumentError (String × FieldDecl) :=
  match FieldDecl.ofValue? m.2 with
  | some decl => .ok (m.1, decl)
  | none => .error .malformed

def ofDocument (v : Value) : Except DocumentError Definition := do
  let id ← requireId (← requireString v "path")
  let ancestors ← (items v "ancestors").mapM idOfItem
  let auxiliaries ← (items v "auxiliaries").mapM idOfItem
  let fields ← (((v.getD "fields").asDict?).getD .empty).toList.mapM fieldOfDocument
  let methods ← (items v "methods").mapM methodOfDocument
  let d := ancestors.foldl addAncestor (empty id)
  let d := auxiliaries.foldl addAuxiliary d
  let d := { d with prototype := ((v.getD "prototype").asBool?).getD false }
  let d := fields.foldl (fun d f => d.addField f.1 f.2) d
  return methods.foldl (fun d m => d.addMethod m.1 m.2) d

end Definition

end Mudlib
