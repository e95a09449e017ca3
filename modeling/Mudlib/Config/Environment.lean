import Mudlib.Config
import Mudlib.Text.Classes
import Mudlib.Toml.Document
/-!
Settings from a file and from variables of the environment.

Variables win over the file and the file over the standard settings. The text of a variable that
reads as a truth value, a number, a list, an object or a quoted text is that value; any other text
stands for itself.
-/
set_option autoImplicit false

namespace Mudlib.Variable

def skipBlanks (cs : List Char) : List Char := cs.dropWhile Text.isAsciiBlank

def isSeparator (c : Char) : Bool := [',', '\x7b', '\x7d', '[', ']'].contains c

def splitSign : List Char → Bool × List Char
  | '-' :: rest => (true, rest)
  | '+' :: rest => (false, rest)
  | cs => (false, cs)

def float? (word : List Char) : Option Value := do
  let (negative, body) := splitSign word
  let (whole, rest) := Digits.spanDecimal body
  match rest with
  | '.' :: rest =>
    let (fraction, rest) := Digits.spanDecimal rest
    if whole.isEmpty && fraction.isEmpty then none
    let (power, rest) ← match rest with
      | 'e' :: rest | 'E' :: rest => Digits.readExponent rest
      | rest => some (0, rest)
    if !rest.isEmpty then none
    return ((Binary64.ofDecimal negative (Digits.toNat 10 (whole ++ fraction))
      (power - fraction.length)).map Value.float).getD .null
  | _ => none

def int? (word : List Char) : Option Value :=
  let (negative, digits) := splitSign word
  let n : Int := Digits.toNat 10 digits
  let signed := if negative then -n else n
  if !digits.isEmpty && digits.all (Digits.isDigit 10) && Value.inWholeRange signed then
    some (.int signed)
  else none

def ofWord (word : List Char) : Value :=
  ((float? word).or (int? word)).getD (.str (String.ofList word))

def takeBytes : Nat → List Char → List Char
  | _, [] => []
  | n, c :: rest => if c.utf8Size ≤ n then c :: takeBytes (n - c.utf8Size) rest else []

/-- The rest of a text in double quotes. Where it has escapes, of the characters before the first of
them only as many bytes are kept as they are in number: all of them in ASCII. -/
def readQuoted (cs : List Char) : Option (String × List Char) :=
  let (plain, rest) := cs.span fun c => Toml.isTextChar c && c != '"' && c != '\\'
  match rest with
  | '\\' :: _ => Toml.readBasic (rest.length + 1) (takeBytes plain.length plain).reverse rest
  | _ => Toml.readBasic (cs.length + 1) [] cs

def isKeyChar (c : Char) : Bool := c.isAlphanum || c == '_' || c == '-'

def readKey (cs : List Char) : Option (String × List Char) :=
  match cs with
  | '"' :: rest => readQuoted rest
  | _ =>
    let (word, rest) := cs.span isKeyChar
    if word.isEmpty then none else some (String.ofList word, rest)

mutual

def readValue : Nat → List Char → Option (Value × List Char)
  | 0, _ => none
  | n + 1, cs =>
    let read : Option (Value × List Char) := match skipBlanks cs with
      | 't' :: 'r' :: 'u' :: 'e' :: rest => some (.bool true, rest)
      | 'f' :: 'a' :: 'l' :: 's' :: 'e' :: rest => some (.bool false, rest)
      | '[' :: rest => (readItems n [] rest).map fun r => (.list r.1, r.2)
      | '\x7b' :: rest => (readPairs n [] rest).map fun r => (.ofMembers r.1, r.2)
      | '"' :: rest => (readQuoted rest).map fun r => (.str r.1, r.2)
      | '\'' :: c :: '\'' :: rest => some (.str (String.singleton c), rest)
      | '\'' :: _ => none
      | cs =>
        let (word, rest) := cs.span fun c => !isSeparator c
        some (ofWord (Text.trim word), rest)
    read.map fun r => (r.1, skipBlanks r.2)
termination_by structural n => n

def readItems : Nat → List Value → List Char → Option (List Value × List Char)
  | 0, _, _ => none
  | n + 1, acc, cs =>
    match cs with
    | ']' :: rest => some (acc.reverse, rest)
    | _ =>
      match readValue n cs with
      | some (v, ',' :: rest) => readItems n (v :: acc) rest
      | some (v, ']' :: rest) => some ((v :: acc).reverse, rest)
      | _ => none
termination_by structural n => n

def readPairs :
    Nat → List (String × Value) → List Char → Option (List (String × Value) × List Char)
  | 0, _, _ => none
  | n + 1, acc, cs =>
    match cs with
    | '\x7d' :: rest => some (acc.reverse, rest)
    | _ =>
      match readKey (skipBlanks cs) with
      | none => none
      | some (key, rest) =>
        match skipBlanks rest with
        | '=' :: rest =>
          match readValue n rest with
          | some (v, ',' :: rest) => readPairs n ((key, v) :: acc) rest
          | some (v, '\x7d' :: rest) => some (((key, v) :: acc).reverse, rest)
          | _ => none
        | _ => none
termination_by structural n => n

end

def ofText (text : String) : Value :=
  let cs := text.toList
  match readValue (cs.length + 1) cs with
  | some (v, []) => v
  | _ => .str text

/-- The keys that a name spells, each below the one before it. Names count in any case of letters
and without the blanks around them. -/
def keysOf (name : String) : List String :=
  ((Text.trim (name.toList.map Char.toLower)).splitOn '.').map String.ofList

def setting? (name text : String) : Option (String × Value) :=
  match keysOf name with
  | [] => none
  | key :: inner =>
    if (key :: inner).contains "" then none
    else some (key, inner.foldr (fun key v => .obj [(key, v)]) (ofText text))

end Variable

namespace Config

/-- Null, which stands for a number that is not finite, and tables are no settings. -/
def isSetting : Value → Bool
  | .null => false
  | .obj _ => false
  | _ => true

def ofSettings? (settings : Dict String Value) : Option Config :=
  if fieldNames.all fun name => (settings.get? name).all isSetting then
    ofValue? (.ofDict settings)
  else none

def membersOfFile? : Option ByteArray → Option (List (String × Value))
  | none => some []
  | some bytes => (String.fromUTF8? bytes).bind Toml.settledMembers?

def load? (file : Option ByteArray) (environment : List (String × String)) : Option Config :=
  (membersOfFile? file).bind fun members =>
    ofSettings? (.ofList (members ++ environment.filterMap fun v => Variable.setting? v.1 v.2))

end Config

end Mudlib
