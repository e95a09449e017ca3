import Mudlib.Toml.Lexical
import Mudlib.Value.Basic
set_option autoImplicit false

namespace Mudlib.Toml

def readDigits (base : Nat) (cs : List Char) : Option (List Char × List Char) :=
  let (run, rest) := cs.span fun c => Digits.isDigit base c || c == '_'
  if (run.splitOn '_').any List.isEmpty then none else some (run.filter (· ≠ '_'), rest)

def whole? (negative : Bool) (n : Nat) : Option Value :=
  let signed : Int := if negative then -n else n
  if -(Nat.pow 2 63 : Int) ≤ signed && signed < Nat.pow 2 63 then some (.int signed) else none

/-- The float, null where it lies below the least one; one above the greatest is refused. -/
def float? (negative : Bool) (digits : List Char) (exponent : Int) : Option Value :=
  match Binary64.ofDecimal negative (Digits.toNat 10 digits) exponent with
  | some x => some (.float x)
  | none => if negative then some .null else none

def readExponent (cs : List Char) : Option (Int × List Char) :=
  match cs with
  | 'e' :: rest | 'E' :: rest =>
    let (negative, rest) := match rest with
      | '-' :: r => (true, r)
      | '+' :: r => (false, r)
      | r => (false, r)
    (readDigits 10 rest).map fun (digits, rest) =>
      let n : Int := Digits.toNat 10 digits
      (if negative then -n else n, rest)
  | _ => some (0, cs)

def readDecimal (negative : Bool) (cs : List Char) : Option (Value × List Char) := do
  let (digits, afterWhole) ← readDigits 10 cs
  if digits.head? == some '0' && digits.length ≠ 1 then none
  match afterWhole with
  | '.' :: rest =>
    let (fraction, rest) ← readDigits 10 rest
    let (exponent, rest) ← readExponent rest
    return (← float? negative (digits ++ fraction) (exponent - fraction.length), rest)
  | 'e' :: _ | 'E' :: _ =>
    let (exponent, rest) ← readExponent afterWhole
    return (← float? negative digits exponent, rest)
  | _ => return (← whole? negative (Digits.toNat 10 digits), afterWhole)

def readInBase (base : Nat) (cs : List Char) : Option (Value × List Char) := do
  let (digits, rest) ← readDigits base cs
  return (← whole? false (Digits.toNat base digits), rest)

def readSigned (negative : Bool) (cs : List Char) : Option (Value × List Char) :=
  match cs with
  | 'i' :: 'n' :: 'f' :: rest => some (.null, rest)
  | 'n' :: 'a' :: 'n' :: rest => some (.null, rest)
  | _ => readDecimal negative cs

def readNumber (cs : List Char) : Option (Value × List Char) :=
  match cs with
  | '+' :: rest => readSigned false rest
  | '-' :: rest => readSigned true rest
  | '0' :: 'x' :: rest => readInBase 16 rest
  | '0' :: 'o' :: rest => readInBase 8 rest
  | '0' :: 'b' :: rest => readInBase 2 rest
  | _ => readSigned false cs

end Mudlib.Toml
