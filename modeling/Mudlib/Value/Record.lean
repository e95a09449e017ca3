import Mudlib.Value.Basic
/-!
Reading a record with named fields from a value.

A record is written as an object, whose other keys are ignored, or as the list of its values in the
order of its fields, whose missing values count as missing fields.
-/
set_option autoImplicit false

namespace Mudlib

structure Record where
  given : List (String × Value)
  deriving Repr

namespace Record

/-- Reads a record with these fields, where a list may go on after their values. -/
def ofLeading? (fields : List String) : Value → Option Record
  | .obj members => some ⟨members⟩
  | .list items => some ⟨fields.zip items⟩
  | _ => none

def ofValue? (fields : List String) : Value → Option Record
  | .obj members => some ⟨members⟩
  | .list items => if items.length ≤ fields.length then some ⟨fields.zip items⟩ else none
  | _ => none

def get? (r : Record) (field : String) : Option Value := Assoc.get? field r.given

def required {α : Type} (r : Record) (field : String) (read : Value → Option α) : Option α :=
  (r.get? field).bind read

def withDefault {α : Type} (r : Record) (field : String) (default : α) (read : Value → Option α) :
    Option α :=
  match r.get? field with
  | none => some default
  | some v => read v

def optional {α : Type} (r : Record) (field : String) (read : Value → Option α) :
    Option (Option α) :=
  match r.get? field with
  | none => some none
  | some .null => some none
  | some v => (read v).map some

def onlyKeys (r : Record) (keys : List String) : Bool := r.given.all fun m => keys.contains m.1

end Record

end Mudlib
