import Mudlib.Value.Basic
import Mudlib.Number.Scaled
/-!
Values from JSON text.

A number without a point and an exponent within the range of whole numbers is whole; every other
number, and minus zero, is a float, read as `Binary64.ofScaled` does. Of members with one key the last
counts.
-/
set_option autoImplicit false

namespace Mudlib.Value

def skipBlanks (cs : List Char) : List Char :=
  cs.dropWhile fun c => c == ' ' || c == '\n' || c == '\t' || c == '\r'

def readFraction (cs : List Char) : Option (List Char × List Char) :=
  match cs with
  | '.' :: rest =>
    let (digits, rest) := Digits.spanDecimal rest
    if digits.isEmpty then none else some (digits, rest)
  | _ => some ([], cs)

def readPower (cs : List Char) : Option (Int × List Char) :=
  match cs with
  | 'e' :: rest => Digits.readExponent rest
  | 'E' :: rest => Digits.readExponent rest
  | _ => some (0, cs)

/-- A number in front of the text; leading zeros and floats beyond the largest are refused. -/
def readNumber (cs : List Char) : Option (Value × List Char) := do
  let (negative, body) := match cs with
    | '-' :: r => (true, r)
    | r => (false, r)
  let (whole, afterWhole) := Digits.spanDecimal body
  if whole.isEmpty || (whole.head? == some '0' && whole.length ≠ 1) then none
  let (fraction, afterFraction) ← readFraction afterWhole
  let (power, rest) ← readPower afterFraction
  let n : Int := Digits.toNat 10 whole
  let signed := if negative then -n else n
  if rest.length = afterWhole.length && inWholeRange signed && !(negative && n = 0) then
    some (.int signed, rest)
  else
    let (digits, exponent) := Digits.leading whole fraction power
    let x ← Binary64.ofScaled negative digits exponent
    some (.float x, rest)

def readHex4 : List Char → Option (Nat × List Char)
  | a :: b :: c :: d :: rest =>
    if [a, b, c, d].all (Digits.isDigit 16) then some (Digits.toNat 16 [a, b, c, d], rest) else none
  | _ => none

/-- The character of a `u` escape; a high surrogate has to be followed by the escape of a low one. -/
def readUnicodeEscape (cs : List Char) : Option (Char × List Char) := do
  let (n, rest) ← readHex4 cs
  if 0xD800 ≤ n && n < 0xDC00 then
    match rest with
    | '\\' :: 'u' :: rest =>
      let (m, rest) ← readHex4 rest
      if 0xDC00 ≤ m && m < 0xE000 then
        some (Char.ofNat (0x10000 + (n - 0xD800) * 0x400 + (m - 0xDC00)), rest)
      else none
    | _ => none
  else if 0xDC00 ≤ n && n < 0xE000 then none
  else some (Char.ofNat n, rest)

def readQuoted : Nat → List Char → List Char → Option (String × List Char)
  | 0, _, _ => none
  | n + 1, acc, cs =>
    match cs with
    | '"' :: rest => some (String.ofList acc.reverse, rest)
    | '\\' :: 'u' :: rest =>
      match readUnicodeEscape rest with
      | some (c, rest) => readQuoted n (c :: acc) rest
      | none => none
    | '\\' :: c :: rest =>
      let meant := match c with
        | '"' => some '"'
        | '\\' => some '\\'
        | '/' => some '/'
        | 'b' => some '\x08'
        | 'f' => some '\x0c'
        | 'n' => some '\n'
        | 'r' => some '\r'
        | 't' => some '\t'
        | _ => none
      match meant with
      | some m => readQuoted n (m :: acc) rest
      | none => none
    | c :: rest => if c.toNat < 0x20 then none else readQuoted n (c :: acc) rest
    | [] => none

mutual

/-- A value in front of the text, with nesting and length bounded by the first argument. -/
def readValue : Nat → List Char → Option (Value × List Char)
  | 0, _ => none
  | n + 1, cs =>
    match skipBlanks cs with
    | 'n' :: 'u' :: 'l' :: 'l' :: rest => some (.null, rest)
    | 't' :: 'r' :: 'u' :: 'e' :: rest => some (.bool true, rest)
    | 'f' :: 'a' :: 'l' :: 's' :: 'e' :: rest => some (.bool false, rest)
    | '"' :: rest => (readQuoted (rest.length + 1) [] rest).map fun r => (.str r.1, r.2)
    | '[' :: rest =>
      match skipBlanks rest with
      | ']' :: rest => some (.list [], rest)
      | rest => (readItems n [] rest).map fun r => (.list r.1, r.2)
    | '{' :: rest =>
      match skipBlanks rest with
      | '}' :: rest => some (.obj [], rest)
      | rest => (readMembers n [] rest).map fun r => (ofMembers r.1, r.2)
    | rest => readNumber rest
termination_by structural n => n

def readItems : Nat → List Value → List Char → Option (List Value × List Char)
  | 0, _, _ => none
  | n + 1, acc, cs =>
    match readValue n cs with
    | none => none
    | some (v, rest) =>
      match skipBlanks rest with
      | ',' :: rest => readItems n (v :: acc) rest
      | ']' :: rest => some ((v :: acc).reverse, rest)
      | _ => none
termination_by structural n => n

def readMembers :
    Nat → List (String × Value) → List Char → Option (List (String × Value) × List Char)
  | 0, _, _ => none
  | n + 1, acc, cs =>
    match skipBlanks cs with
    | '"' :: rest =>
      match readQuoted (rest.length + 1) [] rest with
      | none => none
      | some (k, rest) =>
        match skipBlanks rest with
        | ':' :: rest =>
          match readValue n rest with
          | none => none
          | some (v, rest) =>
            match skipBlanks rest with
            | ',' :: rest => readMembers n ((k, v) :: acc) rest
            | '}' :: rest => some (((k, v) :: acc).reverse, rest)
            | _ => none
        | _ => none
    | _ => none
termination_by structural n => n

end

def parse? (text : String) : Option Value :=
  let cs := text.toList
  match readValue (cs.length + 1) cs with
  | some (v, rest) => if (skipBlanks rest).isEmpty then some v else none
  | none => none

end Mudlib.Value
