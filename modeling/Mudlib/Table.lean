import Mudlib.Definition.Fingerprint
/-!
Tables: a definition merged with all of its ancestors.

Each linking has a number, its stamp. Tables are the same object when their stamps are equal, and
implementations when both stamp and name are: one linking makes at most one implementation of a name.
-/
set_option autoImplicit false

namespace Mudlib

structure FieldSlot where
  owner : DefinitionId
  type : FieldType
  default : Value
  deriving DecidableEq, Repr

/-- A linked method: its body, and the implementation that each of its qualified calls runs. -/
inductive Implementation where
  | mk (stamp : Nat) (owner : DefinitionId) (name : String) (body : Body)
      (calls : List (QualifiedCall × Implementation))

namespace Implementation

def stamp : Implementation → Nat
  | .mk stamp _ _ _ _ => stamp

def owner : Implementation → DefinitionId
  | .mk _ owner _ _ _ => owner

def name : Implementation → String
  | .mk _ _ name _ _ => name

def body : Implementation → Body
  | .mk _ _ _ body _ => body

def calls : Implementation → List (QualifiedCall × Implementation)
  | .mk _ _ _ _ calls => calls

/-- Whether the two are one object. -/
def same (a b : Implementation) : Bool := a.stamp == b.stamp && a.name == b.name

def bound? (m : Implementation) (call : QualifiedCall) : Option Implementation :=
  (m.calls.find? fun b => b.1 = call).map Prod.snd

end Implementation

/-- All implementations of one method name, oldest contributor first. -/
structure MethodSlot where
  implementations : List Implementation
  /-- Which of them an unqualified invocation runs. -/
  default : Nat
  inRange : default < implementations.length

namespace MethodSlot

def defaultImpl (slot : MethodSlot) : Implementation :=
  slot.implementations.get ⟨slot.default, slot.inRange⟩

def fromOwner? (slot : MethodSlot) (owner : DefinitionId) : Option Implementation :=
  slot.implementations.find? fun m => m.owner = owner

def owners (slot : MethodSlot) : List DefinitionId := slot.implementations.map Implementation.owner

end MethodSlot

structure Table where
  stamp : Nat
  id : DefinitionId
  /-- Direct ancestors in declaration order. -/
  ancestors : List DefinitionId
  /-- Every ancestor, depth-first in declaration order, without repetition. -/
  lineage : List DefinitionId
  /-- The length of the longest ancestor chain above the definition. -/
  depth : Nat
  fields : Dict String FieldSlot
  methods : Dict String MethodSlot
  prototype : Bool
  /-- Inherited auxiliaries first, then the definition's own. -/
  auxiliaries : List DefinitionId
  fingerprint : Option String

namespace Table

def method? (t : Table) (name : String) : Option Implementation :=
  (t.methods.get? name).map MethodSlot.defaultImpl

def hasMethod (t : Table) (name : String) : Bool := t.methods.contains name

def field? (t : Table) (name : String) : Option FieldSlot := t.fields.get? name

def isA (t : Table) (ancestor : DefinitionId) : Bool := t.id = ancestor || ancestor ∈ t.lineage

/-- Whether the table embeds contributions of a definition. -/
def dependsOn (t : Table) (id : DefinitionId) : Bool := id ∈ t.lineage

def defaultFields (t : Table) : Dict String Value := t.fields.mapVal fun _ slot => slot.default

end Table

def FieldSlot.toValue (slot : FieldSlot) : Value :=
  .ofMembers [
    ("owner", .str slot.owner.text),
    ("type", .str slot.type.name),
    ("default", slot.default)]

def MethodSlot.summary (slot : MethodSlot) : Value :=
  .ofMembers [
    ("implementations", idValues slot.owners),
    ("default", .str slot.defaultImpl.owner.text)]

def Implementation.callTexts (m : Implementation) : List String :=
  m.calls.filterMap fun b =>
    (m.bound? b.1).map fun target => b.1.text ++ " -> " ++ target.owner.text

def MethodSlot.links (slot : MethodSlot) : Value :=
  .ofMembers [
    ("default", .int slot.default),
    ("list", .list (slot.implementations.map fun m =>
      .list [.str m.owner.text, Value.ofStrings m.callTexts]))]

namespace Table

def summaryMembers (t : Table) : List (String × Value) := [
  ("id", .str t.id.text),
  ("ancestors", idValues t.ancestors),
  ("lineage", idValues t.lineage),
  ("fields", .ofDict (t.fields.mapVal fun _ slot => slot.toValue)),
  ("methods", .ofDict (t.methods.mapVal fun _ slot => slot.summary)),
  ("prototype", .bool t.prototype),
  ("auxiliaries", idValues t.auxiliaries)]

def summary (t : Table) : Value := .ofMembers t.summaryMembers

def describe (t : Table) : Value :=
  .ofMembers (t.summaryMembers ++ [
    ("links", .ofDict (t.methods.mapVal fun _ slot => slot.links)),
    ("depth", .int t.depth),
    ("fingerprint", t.fingerprint.elim .null .str)])

end Table

end Mudlib
