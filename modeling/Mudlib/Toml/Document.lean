import Mudlib.Toml.Number
import Mudlib.Toml.Tree
/-!
TOML documents as values.

A document is a list of statements: assignments to keys and headers of tables. Dates are not
supported. Numbers that are not finite are read as null.
-/
set_option autoImplicit false

namespace Mudlib.Toml

def maxNesting : Nat := 79

mutual

def readValue : Nat → Nat → List Char → Option (Value × List Char)
  | 0, _, _ => none
  | n + 1, nesting, cs =>
    match readText? cs with
    | some text => text.map fun r => (.str r.1, r.2)
    | none =>
      match cs, nesting with
      | 't' :: 'r' :: 'u' :: 'e' :: rest, _ => some (.bool true, rest)
      | 'f' :: 'a' :: 'l' :: 's' :: 'e' :: rest, _ => some (.bool false, rest)
      | '[' :: rest, nesting + 1 =>
        (readItems n nesting [] rest).map fun r => (.list r.1, r.2)
      | '\x7b' :: rest, nesting + 1 =>
        match skipBlanks rest with
        | '\x7d' :: rest => some (.obj [], rest)
        | rest => (readPairs n nesting [] rest).map fun r => (.obj (membersOf r.1), r.2)
      | _, _ => readNumber cs
termination_by structural n => n

def readItems : Nat → Nat → List Value → List Char → Option (List Value × List Char)
  | 0, _, _, _ => none
  | n + 1, nesting, acc, cs =>
    match skipLines cs.length cs with
    | ']' :: rest => some (acc.reverse, rest)
    | cs =>
      match readValue n nesting cs with
      | none => none
      | some (v, rest) =>
        match skipLines rest.length rest with
        | ',' :: rest => readItems n nesting (v :: acc) rest
        | ']' :: rest => some ((v :: acc).reverse, rest)
        | _ => none
termination_by structural n => n

def readPairs : Nat → Nat → Entries → List Char → Option (Entries × List Char)
  | 0, _, _, _ => none
  | n + 1, nesting, entries, cs =>
    match readKey cs with
    | some (key, '=' :: rest) =>
      match readValue n nesting (skipBlanks rest) with
      | none => none
      | some (v, rest) =>
        match entries.putDotted? key.name v key.parents, skipBlanks rest with
        | some entries, ',' :: rest => readPairs n nesting entries rest
        | some entries, '\x7d' :: rest => some (entries, rest)
        | _, _ => none
    | _ => none
termination_by structural n => n

end

inductive Statement where
  | assign (key : Key) (v : Value)
  | table (key : Key)
  | tables (key : Key)

def readStatement (cs : List Char) : Option (Statement × List Char) :=
  match cs with
  | '[' :: '[' :: rest =>
    match readKey rest with
    | some (key, ']' :: ']' :: rest) => (endLine? rest).map fun rest => (.tables key, rest)
    | _ => none
  | '[' :: rest =>
    match readKey rest with
    | some (key, ']' :: rest) => (endLine? rest).map fun rest => (.table key, rest)
    | _ => none
  | _ =>
    match readKey cs with
    | some (key, '=' :: rest) =>
      match readValue (rest.length + 1) maxNesting (skipBlanks rest) with
      | some (v, rest) => (endLine? rest).map fun rest => (.assign key v, rest)
      | none => none
    | _ => none

def readStatements : Nat → List Char → Option (List Statement)
  | 0, _ => none
  | n + 1, cs =>
    match skipBlanks cs with
    | [] => some []
    | cs =>
      match endLine? cs with
      | some rest => readStatements n rest
      | none =>
        match readStatement cs with
        | some (statement, rest) => (readStatements n rest).map (statement :: ·)
        | none => none

/-- What the statements read so far made, and the path of the table that assignments go to. -/
structure Draft where
  root : Entries
  current : List String

namespace Draft

def empty : Draft := ⟨[], []⟩

def step? (d : Draft) : Statement → Option Draft
  | .assign key v =>
    (d.root.modifyAt? (Entries.putDotted? key.name v key.parents) d.current).map fun root =>
      { d with root }
  | .table key =>
    (d.root.modifyAt? (Entries.declare? key.name) key.parents).map fun root =>
      ⟨root, key.parents ++ [key.name]⟩
  | .tables key =>
    (d.root.modifyAt? (Entries.append? key.name) key.parents).map fun root =>
      ⟨root, key.parents ++ [key.name]⟩

end Draft

def members? (text : String) : Option (List (String × Value)) :=
  let cs := match text.toList with
    | '\uFEFF' :: rest => rest
    | cs => cs
  match readStatements (cs.length + 1) cs with
  | some statements =>
    (statements.foldlM Draft.step? Draft.empty).map fun draft => membersOf draft.root
  | none => none

def parse? (text : String) : Option Value := (members? text).map .obj

/-! Inside a document, a table with the key `standInKey` means what is under that key, whatever else
the table holds. A table with the key `markKey` is refused. -/

def standInKey : String := "___figment_value_value"

def markKey : String := "___figment_value_id"

def meaning? (members : List (String × Value)) : Option Value :=
  match Assoc.get? markKey members with
  | some _ => none
  | none => some ((Assoc.get? standInKey members).getD (.obj members))

mutual

/-- What a value means when the tables in it are taken for what they stand for. -/
def settle? : Value → Option Value
  | .list items => (settleItems? items).map .list
  | .obj members => (settleMembers? members).bind meaning?
  | v => some v
termination_by structural v => v

def settleItems? : List Value → Option (List Value)
  | [] => some []
  | v :: rest =>
    match settle? v, settleItems? rest with
    | some v, some rest => some (v :: rest)
    | _, _ => none
termination_by structural vs => vs

def settleMembers? : List (String × Value) → Option (List (String × Value))
  | [] => some []
  | (key, v) :: rest =>
    match settle? v, settleMembers? rest with
    | some v, some rest => some ((key, v) :: rest)
    | _, _ => none
termination_by structural ms => ms

end

/-- The members of the document that a text writes, taken for what they stand for. The document
itself stands for nothing else. -/
def settledMembers? (text : String) : Option (List (String × Value)) :=
  (members? text).bind settleMembers?

end Mudlib.Toml
