import Mudlib.Number.Binary64
/-!
The shortest decimal that reads back as a given binary number, and its text.

For one digit, two digits and so on, the two neighbours of the number on that decimal grid are tried
in exact arithmetic; the first grid that has one reading back wins, and of two the nearer, of two as
near the even one.
-/
set_option autoImplicit false

namespace Mudlib

structure Decimal where
  digits : Nat
  exponent : Int
  deriving DecidableEq, Repr

namespace Decimal

def powerOfTen (e : Int) : Nat × Nat :=
  if 0 ≤ e then (Nat.pow 10 e.toNat, 1) else (1, Nat.pow 10 (-e).toNat)

def le (d : Decimal) (num den : Nat) : Bool :=
  let p := powerOfTen d.exponent
  d.digits * p.1 * den ≤ num * p.2

/-- The greatest `e` with `10 ^ e ≤ num / den`, for `num` not zero. The estimate from the binary
logarithm is at most two too small. -/
def leadingExponent (num den : Nat) : Int :=
  let e := Binary64.log2Ratio num den * 30103 / 100000 - 1
  if le ⟨1, e + 3⟩ num den then e + 3
  else if le ⟨1, e + 2⟩ num den then e + 2
  else if le ⟨1, e + 1⟩ num den then e + 1
  else e

def strip : Nat → Decimal → Decimal
  | 0, d => d
  | n + 1, d =>
    if d.digits ≠ 0 ∧ d.digits % 10 = 0 then strip n ⟨d.digits / 10, d.exponent + 1⟩ else d

end Decimal

namespace Binary64

/-- Whether a decimal reads back as this number: whether it lies between the midpoints to the two
neighbouring numbers, which belong to it when its significand is even. -/
def readsBack (x : Binary64) (d : Decimal) : Bool :=
  let v := x.ratio
  let p := Decimal.powerOfTen d.exponent
  let narrowBelow := x.scale ≠ 0 ∧ x.significand = Nat.pow 2 52
  -- in units of a quarter of the last place
  let low := if narrowBelow then 4 * x.significand - 1 else 4 * x.significand - 2
  let high := 4 * x.significand + 2
  let left := 4 * x.significand * (d.digits * p.1) * v.2
  let right := v.1 * p.2
  if x.significand % 2 = 0 then low * right ≤ left && left ≤ high * right
  else low * right < left && left < high * right

def onGrid? (x : Binary64) (e : Int) : Option Decimal :=
  let v := x.ratio
  let p := Decimal.powerOfTen e
  let num := v.1 * p.2
  let den := v.2 * p.1
  let q := num / den
  let r := num % den
  let below : Decimal := ⟨q, e⟩
  let above : Decimal := ⟨q + 1, e⟩
  match x.readsBack below, x.readsBack above with
  | true, true =>
    if 2 * r < den then some below
    else if den < 2 * r then some above
    else if q % 2 = 0 then some below else some above
  | true, false => some below
  | false, true => some above
  | false, false => none

def shortestFrom (x : Binary64) : Nat → Int → Decimal
  | 0, e => ⟨x.ratio.1 * (Decimal.powerOfTen e).2 / (x.ratio.2 * (Decimal.powerOfTen e).1), e⟩
  | n + 1, e =>
    match x.onGrid? e with
    | some d => d
    | none => shortestFrom x n (e - 1)

def shortest (x : Binary64) : Decimal :=
  if x.significand = 0 then ⟨0, 0⟩
  else (shortestFrom x 17 (Decimal.leadingExponent x.ratio.1 x.ratio.2)).strip 17

structure TextStyle where
  exponentFrom : Int
  exponentBelow : Int
  deriving DecidableEq, Repr

def standardStyle : TextStyle := ⟨16, -5⟩

def fractionText (k : Nat) (ds : List Char) : List Char :=
  '0' :: '.' :: List.replicate k '0' ++ ds

/-- The text without its sign. A whole number keeps `.0`; an exponent always has a sign. -/
def magnitudeText (style : TextStyle) (x : Binary64) : List Char :=
  let d := x.shortest
  let ds := Nat.toDigits 10 d.digits
  -- the power of ten of the first digit
  let lead : Int := d.exponent + ds.length - 1
  if d.digits = 0 then ['0', '.', '0']
  else if style.exponentFrom ≤ lead ∨ lead < style.exponentBelow then
    let mantissa := match ds with
      | [] => []
      | [c] => [c]
      | c :: rest => c :: '.' :: rest
    let sign := if lead < 0 then '-' else '+'
    mantissa ++ 'e' :: sign :: Nat.toDigits 10 lead.natAbs
  else if lead < 0 then fractionText (-lead - 1).toNat ds
  else if 0 ≤ d.exponent then ds ++ List.replicate d.exponent.toNat '0' ++ ['.', '0']
  else ds.take (lead + 1).toNat ++ '.' :: ds.drop (lead + 1).toNat

def text (x : Binary64) : List Char :=
  (if x.negative then ['-'] else []) ++ magnitudeText standardStyle x

end Binary64

end Mudlib
