import Mudlib.Toml.Lexical
import Mudlib.Value.Basic
/-!
Documents as trees of tables, and how key assignments and table headers extend them.

A table knows how it came about, since that decides what may still be added: a table with a header
of its own is closed to dotted keys from outside, and one made by dotted keys never gets a header.
-/
set_option autoImplicit false

namespace Mudlib.Toml

inductive Origin where
  /-- Only named on the way to a table further down. -/
  | passed
  /-- Made by a dotted key. -/
  | dotted
  /-- Declared by a header. -/
  | declared
  deriving DecidableEq, Repr

inductive Node where
  | value (v : Value)
  | table (origin : Origin) (entries : List (String × Node))
  /-- A list of tables; the latest is the one that is still extended. -/
  | tables (latest : List (String × Node)) (earlier : List (List (String × Node)))

abbrev Entries := List (String × Node)

mutual

def Node.toValue : Node → Value
  | .value v => v
  | .table _ entries => .obj (membersOf entries)
  | .tables latest earlier => .list (listOf earlier ++ [.obj (membersOf latest)])

def membersOf : List (String × Node) → List (String × Value)
  | [] => []
  | (key, node) :: rest => (key, node.toValue) :: membersOf rest

def listOf : List (List (String × Node)) → List Value
  | [] => []
  | entries :: rest => listOf rest ++ [.obj (membersOf entries)]

end

namespace Entries

def put? (name : String) (v : Value) (entries : Entries) : Option Entries :=
  match Assoc.get? name entries with
  | none => some (Assoc.insert name (.value v) entries)
  | some _ => none

/-- Adds a value under a dotted key. The table that receives it has to be made by dotted keys, and
no table on the way may have a header of its own. -/
def putDotted? (name : String) (v : Value) : List String → Entries → Option Entries
  | [], entries => put? name v entries
  | key :: parents, entries =>
    match Assoc.get? key entries with
    | none =>
      (putDotted? name v parents []).map fun sub =>
        Assoc.insert key (.table .dotted sub) entries
    | some (.table origin sub) =>
      if origin = .declared || (parents.isEmpty && origin ≠ .dotted) then none
      else (putDotted? name v parents sub).map fun sub =>
        Assoc.insert key (.table origin sub) entries
    | some (.tables latest earlier) =>
      if parents.isEmpty then none
      else (putDotted? name v parents latest).map fun sub =>
        Assoc.insert key (.tables sub earlier) entries
    | some (.value _) => none

/-- Changes the table at a path of headers, and makes the tables on the way that are missing. -/
def modifyAt? (change : Entries → Option Entries) : List String → Entries → Option Entries
  | [], entries => change entries
  | key :: path, entries =>
    match Assoc.get? key entries with
    | none =>
      (modifyAt? change path []).map fun sub => Assoc.insert key (.table .passed sub) entries
    | some (.table origin sub) =>
      (modifyAt? change path sub).map fun sub => Assoc.insert key (.table origin sub) entries
    | some (.tables latest earlier) =>
      (modifyAt? change path latest).map fun sub => Assoc.insert key (.tables sub earlier) entries
    | some (.value _) => none

def declare? (name : String) (entries : Entries) : Option Entries :=
  match Assoc.get? name entries with
  | none => some (Assoc.insert name (.table .declared []) entries)
  | some (.table .passed sub) => some (Assoc.insert name (.table .declared sub) entries)
  | some _ => none

def append? (name : String) (entries : Entries) : Option Entries :=
  match Assoc.get? name entries with
  | none => some (Assoc.insert name (.tables [] []) entries)
  | some (.tables latest earlier) =>
    some (Assoc.insert name (.tables [] (latest :: earlier)) entries)
  | some _ => none

end Entries

end Mudlib.Toml
