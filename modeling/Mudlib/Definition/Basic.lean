import Mudlib.DefinitionId
import Mudlib.Definition.Program
import Mudlib.Value.Printer
set_option autoImplicit false

namespace Mudlib

inductive FieldType where
  | int
  | float
  | string
  | bool
  /-- A reference to an instance, stored as its id. -/
  | object
  | mapping
  | array
  | mixed
  deriving DecidableEq, Repr

namespace FieldType

def all : List FieldType := [.int, .float, .string, .bool, .object, .mapping, .array, .mixed]

def name : FieldType → String
  | .int => "int"
  | .float => "float"
  | .string => "string"
  | .bool => "bool"
  | .object => "object"
  | .mapping => "mapping"
  | .array => "array"
  | .mixed => "mixed"

def ofName? (name : String) : Option FieldType := all.find? fun t => t.name = name

theorem ofName?_name (t : FieldType) : ofName? t.name = some t := by cases t <;> decide

/-- Whether a field of the type may hold the value; null is welcome everywhere. -/
def accepts : FieldType → Value → Bool
  | _, .null => true
  | .int, .int _ => true
  | .float, .int _ => true
  | .float, .float _ => true
  | .string, .str _ => true
  | .bool, .bool _ => true
  | .object, .int n => 0 ≤ n
  | .mapping, .obj _ => true
  | .array, .list _ => true
  | .mixed, _ => true
  | _, _ => false

end FieldType

structure FieldDecl where
  type : FieldType
  default : Value
  deriving DecidableEq, Repr

/-- A call to an ancestor's version of a method. Without an ancestor it goes to whichever direct
ancestor provides the method; with one, into that direct ancestor's chain. -/
structure QualifiedCall where
  ancestor : Option DefinitionId
  method : String
  deriving DecidableEq, Repr

namespace QualifiedCall

def text (call : QualifiedCall) : String :=
  (call.ancestor.map DefinitionId.text).getD "" ++ "::" ++ call.method

end QualifiedCall

/-- A declarative body: makes its qualified calls in order, assigns fields of the running instance in
the order of their names, then returns a fixed value. -/
structure ScriptedBody where
  assign : Dict String Value
  returns : Value
  deriving DecidableEq, Repr

inductive Body where
  | native (code : List Instruction)
  | scripted (body : ScriptedBody)

def Body.isScripted : Body → Bool
  | .native _ => false
  | .scripted _ => true

/-- A declared method, apart from its name: that is its key among the `Definition.methods`. -/
structure MethodDecl where
  body : Body
  /-- The calls that the body may make, bound when the definition is linked. -/
  calls : List QualifiedCall

structure Definition where
  id : DefinitionId
  ancestors : List DefinitionId
  fields : Dict String FieldDecl
  /-- Each method under its own name: `addMethod` and the reading of a document give it no other
  key, and nothing else adds one. -/
  methods : Dict String MethodDecl
  /-- A template only: its instances cannot be destroyed. -/
  prototype : Bool
  /-- Definitions instantiated and attached to every new instance. -/
  auxiliaries : List DefinitionId

namespace Definition

def empty (id : DefinitionId) : Definition := ⟨id, [], .empty, .empty, false, []⟩

def addAncestor (d : Definition) (id : DefinitionId) : Definition :=
  if id ∈ d.ancestors then d else { d with ancestors := d.ancestors ++ [id] }

def addAuxiliary (d : Definition) (id : DefinitionId) : Definition :=
  if id ∈ d.auxiliaries then d else { d with auxiliaries := d.auxiliaries ++ [id] }

def addField (d : Definition) (name : String) (decl : FieldDecl) : Definition :=
  { d with fields := d.fields.insert name decl }

def addMethod (d : Definition) (name : String) (decl : MethodDecl) : Definition :=
  { d with methods := d.methods.insert name decl }

end Definition

end Mudlib
