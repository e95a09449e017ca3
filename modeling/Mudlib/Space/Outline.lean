import Mudlib.Space.Basic
import Mudlib.Text.Classes
set_option autoImplicit false

namespace Mudlib

def outlineOf (name : String) (members : List (String × String)) : String :=
  name ++ " \x7b " ++ ", ".intercalate (members.map fun m => m.1 ++ ": " ++ m.2) ++ " \x7d"

def outlineChar (c : Char) : List Char :=
  if c = '"' || c = '\\' then ['\\', c]
  else if c = '\t' then ['\\', 't']
  else if c = '\n' then ['\\', 'n']
  else if c = '\r' then ['\\', 'r']
  else if c = '\x00' then ['\\', '0']
  else if Text.isShown c then [c]
  else "\\u\x7b".toList ++ Nat.toDigits 16 c.toNat ++ ['\x7d']

def outlineText (text : String) : String :=
  String.ofList ('"' :: text.toList.flatMap outlineChar ++ ['"'])

def outlineId (id : DefinitionId) : String := "DefinitionId(" ++ outlineText id.text ++ ")"

def AmbiguityPolicy.outline : AmbiguityPolicy → String
  | .firstContributor => "FirstContributor"
  | .reject => "Reject"

def Registry.outline (r : Registry) : String :=
  outlineOf "DefinitionRegistry" [
    ("sources", toString r.sources.size),
    ("tables", toString r.tables.size),
    ("loader", toString r.loader.isSome),
    ("policy", r.policy.outline)]

def Space.outline (s : Space) : String :=
  outlineOf "ObjectSpace" [
    ("objects", toString s.population.size),
    ("init_method", outlineText s.initMethod),
    ("base_auxiliary", s.baseAuxiliary.elim "None" fun id => "Some(" ++ outlineId id ++ ")")]

end Mudlib
