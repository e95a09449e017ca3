import Mudlib.Number.Scaled
set_option autoImplicit false

namespace Mudlib.Toml

def isBlank (c : Char) : Bool := c == ' ' || c == '\t'

def skipBlanks (cs : List Char) : List Char := cs.dropWhile isBlank

def newline? : List Char → Option (List Char)
  | '\n' :: rest => some rest
  | '\r' :: '\n' :: rest => some rest
  | _ => none

def isTextChar (c : Char) : Bool := c == '\t' || (0x20 ≤ c.toNat && c.toNat ≠ 0x7F)

def skipComment : List Char → List Char
  | '#' :: rest => rest.dropWhile isTextChar
  | cs => cs

def endLine? (cs : List Char) : Option (List Char) :=
  match skipComment (skipBlanks cs) with
  | [] => some []
  | rest => newline? rest

def skipLines : Nat → List Char → List Char
  | 0, cs => cs
  | n + 1, cs =>
    match newline? (skipComment (skipBlanks cs)) with
    | some rest => skipLines n rest
    | none => skipBlanks cs

def skipBreaks : List Char → List Char
  | '\r' :: '\n' :: rest => skipBreaks rest
  | c :: rest => if isBlank c || c == '\n' then skipBreaks rest else c :: rest
  | [] => []

def readScalar (count : Nat) (cs : List Char) : Option (Char × List Char) :=
  let digits := cs.take count
  let n := Digits.toNat 16 digits
  if digits.length = count && digits.all (Digits.isDigit 16) && decide n.isValidChar then
    some (Char.ofNat n, cs.drop count)
  else none

def readEscape : List Char → Option (Char × List Char)
  | 'b' :: rest => some ('\x08', rest)
  | 't' :: rest => some ('\t', rest)
  | 'n' :: rest => some ('\n', rest)
  | 'f' :: rest => some ('\x0c', rest)
  | 'r' :: rest => some ('\r', rest)
  | '"' :: rest => some ('"', rest)
  | '\\' :: rest => some ('\\', rest)
  | 'u' :: rest => readScalar 4 rest
  | 'U' :: rest => readScalar 8 rest
  | _ => none

def readBasic : Nat → List Char → List Char → Option (String × List Char)
  | 0, _, _ => none
  | n + 1, acc, cs =>
    match cs with
    | '"' :: rest => some (String.ofList acc.reverse, rest)
    | '\\' :: rest =>
      match readEscape rest with
      | some (c, rest) => readBasic n (c :: acc) rest
      | none => none
    | c :: rest => if isTextChar c then readBasic n (c :: acc) rest else none
    | [] => none

def readLiteral (cs : List Char) : Option (String × List Char) :=
  match cs.span fun c => isTextChar c && c != '\'' with
  | (body, '\'' :: rest) => some (String.ofList body, rest)
  | _ => none

/-- The first line break of a text of several lines does not count. -/
def dropFirstBreak (cs : List Char) : List Char := (newline? cs).getD cs

/-- The rest of a text of several lines between triples of this quote, in at most as many steps as
given. Of the quotes that close it, up to two belong to the text. Where escapes count, a backslash at
the end of a line removes everything up to the next visible character. -/
def readLong (quote : Char) (escapes : Bool) :
    Nat → List Char → List Char → Option (String × List Char)
  | 0, _, _ => none
  | n + 1, acc, cs =>
    let (run, afterRun) := cs.span (· == quote)
    if 3 ≤ run.length then
      if run.length ≤ 5 then some (String.ofList (run.drop 3 ++ acc).reverse, afterRun) else none
    else if run.length ≠ 0 then readLong quote escapes n (run ++ acc) afterRun
    else
      match newline? cs, cs with
      | some rest, _ => readLong quote escapes n ('\n' :: acc) rest
      | none, [] => none
      | none, c :: rest =>
        if c == '\\' && escapes then
          match newline? (skipBlanks rest) with
          | some rest => readLong quote escapes n acc (skipBreaks rest)
          | none =>
            match readEscape rest with
            | some (meant, rest) => readLong quote escapes n (meant :: acc) rest
            | none => none
        else if isTextChar c then readLong quote escapes n (c :: acc) rest
        else none

/-- A quoted text in front, of any of the four kinds: `none` where no quote stands in front, and
`some none` where one does but the text is not well formed. -/
def readText? (cs : List Char) : Option (Option (String × List Char)) :=
  match cs with
  | '"' :: '"' :: '"' :: rest =>
    some (readLong '"' true (rest.length + 1) [] (dropFirstBreak rest))
  | '\'' :: '\'' :: '\'' :: rest =>
    some (readLong '\'' false (rest.length + 1) [] (dropFirstBreak rest))
  | '"' :: rest => some (readBasic (rest.length + 1) [] rest)
  | '\'' :: rest => some (readLiteral rest)
  | _ => none

def isBareKeyChar (c : Char) : Bool := c.isAlphanum || c == '_' || c == '-'

def readKeyPart (cs : List Char) : Option (String × List Char) :=
  match cs with
  | '"' :: rest => readBasic (rest.length + 1) [] rest
  | '\'' :: rest => readLiteral rest
  | _ =>
    let (word, rest) := cs.span isBareKeyChar
    if word.isEmpty then none else some (String.ofList word, rest)

structure Key where
  parents : List String
  name : String
  deriving DecidableEq, Repr

def maxKeyParts : Nat := 79

def readKeyParts : Nat → List Char → Option (Key × List Char)
  | 0, _ => none
  | n + 1, cs =>
    match readKeyPart (skipBlanks cs) with
    | none => none
    | some (part, rest) =>
      match skipBlanks rest with
      | '.' :: rest =>
        (readKeyParts n rest).map fun r => (⟨part :: r.1.parents, r.1.name⟩, r.2)
      | rest => some (⟨[], part⟩, rest)

def readKey (cs : List Char) : Option (Key × List Char) := readKeyParts maxKeyParts cs

end Mudlib.Toml
