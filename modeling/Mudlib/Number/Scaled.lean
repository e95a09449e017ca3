import Mudlib.Number.Binary64
/-!
Decimals read in two roundings: the leading digits as a whole number of 64 bits become the nearest
`Binary64`, which is then multiplied or divided by the nearest one to a power of ten.

Up to fifteen digits and a power up to twenty-two this is the nearest number; beyond, it may be off
by one place.
-/
set_option autoImplicit false

namespace Mudlib

namespace Binary64

def mul? (x y : Binary64) : Option Binary64 :=
  ofRatio (x.negative != y.negative) (x.ratio.1 * y.ratio.1) (x.ratio.2 * y.ratio.2)

def div? (x y : Binary64) : Option Binary64 :=
  ofRatio (x.negative != y.negative) (x.ratio.1 * y.ratio.2) (x.ratio.2 * y.ratio.1)

def maxPower : Nat := 308

def powerOfTen (n : Nat) : Binary64 := (ofRatio false (Nat.pow 10 n) 1).getD zero

def lower? (x : Binary64) (exponent : Nat) : Nat → Option Binary64
  | 0 => some { zero with negative := x.negative }
  | steps + 1 =>
    if exponent ≤ maxPower then x.div? (powerOfTen exponent)
    else (x.div? (powerOfTen maxPower)).bind fun y => y.lower? (exponent - maxPower) steps

/-- The number that digits and a power of ten make. Three steps down bring every number of 64 bits to
zero. -/
def ofScaled (negative : Bool) (digits : Nat) (exponent : Int) : Option Binary64 :=
  if digits = 0 then some { zero with negative }
  else
    (ofRatio negative digits 1).bind fun x =>
      if exponent < 0 then x.lower? (-exponent).toNat 3
      else if exponent ≤ maxPower then x.mul? (powerOfTen exponent.toNat)
      else none

end Binary64

namespace Digits

def value? (base : Nat) (c : Char) : Option Nat :=
  let n := c.toNat
  let worth :=
    if '0' ≤ c ∧ c ≤ '9' then some (n - 48)
    else if 'a' ≤ c ∧ c ≤ 'f' then some (n - 87)
    else if 'A' ≤ c ∧ c ≤ 'F' then some (n - 55)
    else none
  worth.filter (· < base)

def isDigit (base : Nat) (c : Char) : Bool := (value? base c).isSome

def toNat (base : Nat) (digits : List Char) : Nat :=
  digits.foldl (fun acc c => base * acc + (value? base c).getD 0) 0

def spanDecimal (cs : List Char) : List Char × List Char :=
  cs.span (isDigit 10)

def readExponent (cs : List Char) : Option (Int × List Char) :=
  let (negative, rest) := match cs with
    | '-' :: r => (true, r)
    | '+' :: r => (false, r)
    | r => (false, r)
  let (digits, rest) := spanDecimal rest
  if digits.isEmpty then none
  else
    let n : Int := toNat 10 digits
    some (if negative then -n else n, rest)

/-- Appends digits to a number while it stays below `2 ^ 64`; the rest is only counted. -/
def absorb (n : Nat) : List Char → Nat × Nat
  | [] => (n, 0)
  | d :: ds =>
    let next := 10 * n + (value? 10 d).getD 0
    if next < Nat.pow 2 64 then absorb next ds else (n, ds.length + 1)

/-- The leading digits of a decimal and the power of ten that they have to be scaled by. -/
def leading (whole fraction : List Char) (power : Int) : Nat × Int :=
  let (n, uncounted) := absorb 0 whole
  let (m, dropped) := absorb n fraction
  (m, power + uncounted - (fraction.length - dropped : Nat))

end Digits

end Mudlib
