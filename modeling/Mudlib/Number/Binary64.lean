set_option autoImplicit false

namespace Mudlib

/-- The number `± significand * 2 ^ (scale - 1074)`, in its one normal form. -/
structure Binary64 where
  negative : Bool
  significand : Nat
  scale : Nat
  fits : significand < Nat.pow 2 53
  normal : scale = 0 ∨ Nat.pow 2 52 ≤ significand
  range : scale ≤ 2045
  deriving DecidableEq, Repr

namespace Binary64

def sameNumber (x y : Binary64) : Bool :=
  x.significand == y.significand && x.scale == y.scale &&
    (x.negative == y.negative || x.significand == 0)

def ratio (x : Binary64) : Nat × Nat :=
  if 1074 ≤ x.scale then (x.significand * Nat.pow 2 (x.scale - 1074), 1)
  else (x.significand, Nat.pow 2 (1074 - x.scale))

def roundHalfEven (num den : Nat) : Nat :=
  let q := num / den
  let r := num % den
  if 2 * r < den then q
  else if den < 2 * r then q + 1
  else if q % 2 = 0 then q else q + 1

def ofParts? (negative : Bool) (significand scale : Nat) : Option Binary64 :=
  if h : significand < Nat.pow 2 53 ∧ (scale = 0 ∨ Nat.pow 2 52 ≤ significand) ∧ scale ≤ 2045 then
    some ⟨negative, significand, scale, h.1, h.2.1, h.2.2⟩
  else none

def log2Ratio (num den : Nat) : Int :=
  let k : Int := (Nat.log2 num : Int) - Nat.log2 den
  let reached := if 0 ≤ k then den * Nat.pow 2 k.toNat ≤ num else den ≤ num * Nat.pow 2 (-k).toNat
  if reached then k else k - 1

def ofRatio (negative : Bool) (num den : Nat) : Option Binary64 :=
  if num = 0 then ofParts? negative 0 0
  else
    let scale := (log2Ratio num den - 52 + 1074).toNat
    let m :=
      if scale ≤ 1074 then roundHalfEven (num * Nat.pow 2 (1074 - scale)) den
      else roundHalfEven num (den * Nat.pow 2 (scale - 1074))
    if m = Nat.pow 2 53 then ofParts? negative (Nat.pow 2 52) (scale + 1)
    else ofParts? negative m scale

/-- The number nearest to `± digits * 10 ^ exponent`. Exponents that put every positive integer
beyond the largest number, or every integer of this size below half the least one, are settled
without computing the power. -/
def ofDecimal (negative : Bool) (digits : Nat) (exponent : Int) : Option Binary64 :=
  if digits = 0 then ofParts? negative 0 0
  else if 310 < exponent then none
  else if exponent < -(400 + (Nat.log2 digits : Int)) then ofParts? negative 0 0
  else if 0 ≤ exponent then ofRatio negative (digits * Nat.pow 10 exponent.toNat) 1
  else ofRatio negative digits (Nat.pow 10 (-exponent).toNat)

def zero : Binary64 := ⟨false, 0, 0, by decide, .inl rfl, by decide⟩

instance : Inhabited Binary64 := ⟨zero⟩

example : ofDecimal false 1 0 = ofParts? false (Nat.pow 2 52) 1022 := by decide +kernel

example : ofDecimal false 5 (-324) = ofParts? false 1 0 := by decide +kernel

example : ofDecimal true 17 307 ≠ none ∧ ofDecimal false 18 307 = none := by decide +kernel

end Binary64

end Mudlib
