import Mudlib.Definition.Basic
import Mudlib.Digest.Sha256
/-!
The fingerprint of a definition: the SHA-256 digest of everything it declares, written as one
compact document with its keys in order. A native body cannot be written down, so a definition with
one has no fingerprint.
-/
set_option autoImplicit false

namespace Mudlib

def idValues (ids : List DefinitionId) : Value := Value.ofStrings (ids.map DefinitionId.text)

def FieldDecl.toValue (decl : FieldDecl) : Value :=
  .obj [("default", decl.default), ("type", .str decl.type.name)]

def QualifiedCall.toValue (call : QualifiedCall) : Value :=
  match call.ancestor with
  | some id => .obj [("ancestor", .str id.text), ("method", .str call.method)]
  | none => .obj [("method", .str call.method)]

def ScriptedBody.toValue (body : ScriptedBody) : Value :=
  .obj [("assign", .ofDict body.assign), ("returns", body.returns)]

def Body.toValue : Body → Value
  | .native _ => .str "Native(..)"
  | .scripted body => body.toValue

def MethodDecl.declaration? (decl : MethodDecl) : Option Value :=
  match decl.body with
  | .native _ => none
  | .scripted body =>
    some (.obj [("body", body.toValue), ("calls", .list (decl.calls.map QualifiedCall.toValue))])

namespace Definition

/-- The declarations of all methods, none if one of them is native. -/
def methodDeclarations? (d : Definition) : Option (List (String × Value)) :=
  d.methods.toList.mapM fun m => m.2.declaration?.map fun v => (m.1, v)

def declaration? (d : Definition) : Option Value :=
  d.methodDeclarations?.map fun methods =>
    .obj [
      ("ancestors", idValues d.ancestors),
      ("auxiliaries", idValues d.auxiliaries),
      ("fields", .ofDict (d.fields.mapVal fun _ decl => decl.toValue)),
      ("id", .str d.id.text),
      ("methods", .obj methods),
      ("prototype", .bool d.prototype)]

def declarationText? (d : Definition) : Option String := d.declaration?.map Value.compact

def fingerprint? (d : Definition) : Option String := d.declarationText?.map Sha256.hexDigest

def describe (d : Definition) : Value :=
  .ofMembers [
    ("id", .str d.id.text),
    ("ancestors", idValues d.ancestors),
    ("auxiliaries", idValues d.auxiliaries),
    ("prototype", .bool d.prototype),
    ("fields", .ofDict (d.fields.mapVal fun _ decl => decl.toValue)),
    ("methods", .ofDict (d.methods.mapVal fun _ decl =>
      .ofMembers [
        ("calls", Value.ofStrings (decl.calls.map QualifiedCall.text)),
        ("body", decl.body.toValue)])),
    ("fingerprint", d.fingerprint?.elim .null .str)]

end Definition

end Mudlib
