import Mathlib.Data.List.TakeDrop
import Mudlib.Proofs.Number.Shortest
import Mudlib.Value.Reader
set_option autoImplicit false

namespace Mudlib

namespace Digits

theorem isDigit_ten (c : Char) : isDigit 10 c = c.isDigit := by
  have hle : '0' ≤ c ∧ c ≤ '9' ↔ c.isDigit = true := by
    rw [Char.isDigit_iff_toNat, Char.le_def, Char.le_def, UInt32.le_iff_toNat_le,
      UInt32.le_iff_toNat_le]
    exact Iff.rfl
  rw [Bool.eq_iff_iff, ← hle]
  unfold isDigit value?
  split
  next h =>
    have hn : c.toNat ≤ 57 := (Char.isDigit_iff_toNat.mp (hle.mp h)).2
    have hlt : c.toNat - 48 < 10 := by omega
    simp [h, hlt]
  next h =>
    refine iff_of_false ?_ h
    split
    next ha =>
      have hn : 97 ≤ c.toNat := ha.1
      have hge : ¬ c.toNat - 87 < 10 := by omega
      simp [hge]
    next =>
      split
      next hA =>
        have hn : 65 ≤ c.toNat := hA.1
        have hge : ¬ c.toNat - 55 < 10 := by omega
        simp [hge]
      next => simp

theorem value?_of_isDigit {c : Char} (h : c.isDigit = true) :
    (value? 10 c).getD 0 = c.toNat - '0'.toNat := by
  have hn := Char.isDigit_iff_toNat.mp h
  have hle : '0' ≤ c ∧ c ≤ '9' := by
    rw [Char.le_def, Char.le_def, UInt32.le_iff_toNat_le, UInt32.le_iff_toNat_le]
    exact hn
  have hlt : c.toNat - 48 < 10 := by
    have : c.toNat ≤ 57 := hn.2
    omega
  simp [value?, hle, hlt, Option.filter]

variable {ds : List Char}

theorem toNat_ten (h : ∀ c ∈ ds, c.isDigit = true) : toNat 10 ds = Nat.ofDigitChars 10 ds 0 := by
  unfold toNat Nat.ofDigitChars
  refine List.foldl_ext _ _ _ ?_
  intro n c hc
  rw [value?_of_isDigit (h c hc)]

theorem isDigit_of_mem_toDigits {n : Nat} {c : Char} (h : c ∈ Nat.toDigits 10 n) :
    c.isDigit = true :=
  Nat.isDigit_of_mem_toDigits (by decide) (Nat.le_refl 10) h

theorem toNat_toDigits (n : Nat) : toNat 10 (Nat.toDigits 10 n) = n := by
  rw [toNat_ten fun c => isDigit_of_mem_toDigits, Nat.ofDigitChars_ten_toDigits]

theorem spanDecimal_append {rest : List Char} (h : ∀ c ∈ ds, c.isDigit = true)
    (hrest : ∀ c ∈ rest.head?, c.isDigit = false) : spanDecimal (ds ++ rest) = (ds, rest) := by
  have hds : ∀ c ∈ ds, isDigit 10 c = true := fun c hc => (isDigit_ten c).trans (h c hc)
  rw [spanDecimal, List.span_eq_takeWhile_dropWhile, List.takeWhile_append_of_pos hds,
    List.dropWhile_append_of_pos hds]
  cases rest with
  | nil => simp
  | cons c rest =>
    have hc : isDigit 10 c = false := (isDigit_ten c).trans (hrest c rfl)
    simp [hc]

end Digits

namespace Binary64

/-- What the reader of numbers finds in a text without a sign: digits around a point, if there is
one, and the power of ten after them. -/
def scanned? (cs : List Char) : Option ℚ := do
  let (whole, rest) := Digits.spanDecimal cs
  let (fraction, rest) ← Value.readFraction rest
  let (power, rest) ← Value.readPower rest
  if rest.isEmpty then
    return (Digits.toNat 10 (whole ++ fraction) : ℚ) * 10 ^ (power - fraction.length)
  else none

section Scanning

theorem scanned?_append {whole fraction tail : List Char} {power : Int}
    (hw : ∀ c ∈ whole, c.isDigit = true) (hf : ∀ c ∈ fraction, c.isDigit = true)
    (hp : Value.readPower tail = some (power, []))
    (htail : ∀ c ∈ tail.head?, c.isDigit = false ∧ c ≠ '.') :
    scanned? (whole ++ if fraction = [] then tail else '.' :: (fraction ++ tail)) =
      some ((Digits.toNat 10 (whole ++ fraction) : ℚ) * 10 ^ (power - fraction.length)) := by
  have htail₁ : ∀ c ∈ tail.head?, c.isDigit = false := fun c hc => (htail c hc).1
  have hfraction : Value.readFraction (if fraction = [] then tail else '.' :: (fraction ++ tail)) =
      some (fraction, tail) := by
    split
    next hnil =>
      subst hnil
      cases tail with
      | nil => rfl
      | cons c tail =>
        have hc : c ≠ '.' := (htail c rfl).2
        unfold Value.readFraction
        simp only
        split
        next heq => exact absurd (List.cons.inj heq).1 hc
        next => rfl
    next hne =>
      simp [Value.readFraction, Digits.spanDecimal_append hf htail₁, hne]
  have hhead : ∀ c ∈ (if fraction = [] then tail else '.' :: (fraction ++ tail)).head?,
      c.isDigit = false := by
    split
    · exact htail₁
    · intro c hc
      obtain rfl : '.' = c := by simpa using hc
      decide
  simp [scanned?, Digits.spanDecimal_append hw hhead, hfraction, hp]

theorem readPower_exponent (lead : Int) :
    Value.readPower ('e' :: (if lead < 0 then '-' else '+') :: Nat.toDigits 10 lead.natAbs) =
      some (lead, []) := by
  have hspan : Digits.spanDecimal (Nat.toDigits 10 lead.natAbs) =
      (Nat.toDigits 10 lead.natAbs, []) := by
    simpa using @Digits.spanDecimal_append _ []
      (fun c => Digits.isDigit_of_mem_toDigits (n := lead.natAbs)) (by simp)
  have hne : (Nat.toDigits 10 lead.natAbs).isEmpty = false := by
    simp [Nat.toDigits_ne_nil]
  split
  next hneg =>
    simp only [Value.readPower, Digits.readExponent, hspan, hne, Digits.toNat_toDigits]
    simp only [Bool.false_eq_true, if_false, if_true]
    congr 2
    omega
  next hpos =>
    simp only [Value.readPower, Digits.readExponent, hspan, hne, Digits.toNat_toDigits]
    simp only [Bool.false_eq_true, if_false]
    congr 2
    omega

end Scanning

def isNumeral (c : Char) : Bool := c.isDigit || c ∈ ['-', '+', '.', 'e']

inductive Writes : List Char → ℚ → Prop where
  | positional (whole fraction : List Char) : whole ≠ [] → fraction ≠ [] →
      (∀ c ∈ whole, c.isDigit = true) → (∀ c ∈ fraction, c.isDigit = true) →
      Writes (whole ++ '.' :: fraction)
        (Digits.toNat 10 (whole ++ fraction) * 10 ^ (-(fraction.length : Int)))
  | scientific {c : Char} {ds : List Char} (lead : Int) : (∀ b ∈ c :: ds, b.isDigit = true) →
      Writes (c :: ((if ds = [] then [] else '.' :: ds) ++
          'e' :: (if lead < 0 then '-' else '+') :: Nat.toDigits 10 lead.natAbs))
        (Digits.toNat 10 (c :: ds) * 10 ^ (lead - ds.length))

section Text

variable {x y : Binary64} {cs : List Char} {v : ℚ}

theorem Writes.scanned? (h : Writes cs v) : scanned? cs = some v := by
  cases h with
  | positional whole fraction _ hne hw hf =>
    have hread : Value.readPower [] = some (0, []) := rfl
    simpa [hne] using scanned?_append hw hf hread (by simp)
  | @scientific c ds lead hd =>
    have hlead : ∀ b ∈ [c], b.isDigit = true := fun b hb => hd b (by simp_all)
    have hscan := scanned?_append hlead (fun b hb => hd b (List.mem_cons_of_mem c hb))
      (readPower_exponent lead) (by simp)
    rw [List.singleton_append, List.singleton_append] at hscan
    rw [← hscan]
    congr 2
    split <;> simp

theorem isNumeral_of_isDigit {c : Char} (h : c.isDigit = true) : isNumeral c = true := by
  simp [isNumeral, h]

theorem Writes.numeral (h : Writes cs v) :
    (∃ c rest, cs = c :: rest ∧ c.isDigit = true) ∧ (∀ c ∈ cs, isNumeral c = true) ∧
      ('.' ∈ cs ∨ 'e' ∈ cs) := by
  cases h with
  | positional whole fraction hne _ hw hf =>
    refine ⟨?_, ?_, .inl (by simp)⟩
    · obtain ⟨c, whole, rfl⟩ := List.exists_cons_of_ne_nil hne
      exact ⟨c, whole ++ '.' :: fraction, rfl, hw c List.mem_cons_self⟩
    · intro c hc
      rcases List.mem_append.mp hc with hc | hc
      · exact isNumeral_of_isDigit (hw c hc)
      · rcases List.mem_cons.mp hc with rfl | hc
        · rfl
        · exact isNumeral_of_isDigit (hf c hc)
  | @scientific c ds lead hd =>
    refine ⟨⟨c, _, rfl, hd c List.mem_cons_self⟩, ?_, .inr (by simp)⟩
    have hmantissa : ∀ b ∈ c :: (if ds = [] then [] else '.' :: ds), isNumeral b = true := by
      intro b hb
      split at hb
      · exact isNumeral_of_isDigit (hd b (by simp_all))
      · rcases List.mem_cons.mp hb with rfl | hb
        · exact isNumeral_of_isDigit (hd b List.mem_cons_self)
        · rcases List.mem_cons.mp hb with rfl | hb
          · rfl
          · exact isNumeral_of_isDigit (hd b (List.mem_cons_of_mem c hb))
    intro b hb
    rw [← List.cons_append] at hb
    rcases List.mem_append.mp hb with hb | hb
    · exact hmantissa b hb
    · rcases List.mem_cons.mp hb with rfl | hb
      · rfl
      · rcases List.mem_cons.mp hb with rfl | hb
        · split <;> rfl
        · exact isNumeral_of_isDigit (Digits.isDigit_of_mem_toDigits hb)

section Notations

variable {ds : List Char} {n k : Nat} {e lead : Int}

theorem isDigit_of_mem_zeros {c : Char} (h : c ∈ List.replicate k '0') : c.isDigit = true := by
  rw [List.eq_of_mem_replicate h]
  rfl

theorem writes_scientific {c : Char} (hd : ∀ b ∈ c :: ds, b.isDigit = true)
    (he : e + (c :: ds).length - 1 = lead) :
    Writes (c :: ((if ds = [] then [] else '.' :: ds) ++
        'e' :: (if lead < 0 then '-' else '+') :: Nat.toDigits 10 lead.natAbs))
      (Digits.toNat 10 (c :: ds) * 10 ^ e) := by
  have hpower : lead - (ds.length : Int) = e := by
    simp only [List.length_cons, Nat.cast_succ] at he
    omega
  have hwrites := Writes.scientific lead hd
  rwa [hpower] at hwrites

theorem writes_fraction (hd : ∀ c ∈ ds, c.isDigit = true) (hne : ds ≠ [])
    (he : e = -((k + ds.length : Nat) : Int)) :
    Writes (fractionText k ds) (Digits.toNat 10 ds * 10 ^ e) := by
  have hall : ∀ c ∈ List.replicate k '0' ++ ds, c.isDigit = true := by
    intro c hc
    rcases List.mem_append.mp hc with hc | hc
    · exact isDigit_of_mem_zeros hc
    · exact hd c hc
  have hnat : Digits.toNat 10 (['0'] ++ (List.replicate k '0' ++ ds)) = Digits.toNat 10 ds := by
    have hzeros : ['0'] ++ (List.replicate k '0' ++ ds) = List.replicate (k + 1) '0' ++ ds := rfl
    rw [Digits.toNat_ten hd, hzeros, Digits.toNat_ten, Nat.ofDigitChars_append,
      Nat.ofDigitChars_replicate_zero, Nat.mul_zero]
    intro c hc
    rcases List.mem_append.mp hc with hc | hc
    · exact isDigit_of_mem_zeros hc
    · exact hd c hc
  have hwrites := Writes.positional ['0'] _ (by simp) (by simp [hne]) (by simp) hall
  rw [hnat, List.length_append, List.length_replicate, ← he] at hwrites
  exact hwrites

theorem writes_whole (hd : ∀ c ∈ ds, c.isDigit = true) (hne : ds ≠ []) (he : 0 ≤ e) :
    Writes (ds ++ List.replicate e.toNat '0' ++ ['.', '0']) (Digits.toNat 10 ds * 10 ^ e) := by
  obtain ⟨k, rfl⟩ := Int.eq_ofNat_of_zero_le he
  have hall : ∀ c ∈ ds ++ List.replicate k '0', c.isDigit = true := by
    intro c hc
    rcases List.mem_append.mp hc with hc | hc
    · exact hd c hc
    · exact isDigit_of_mem_zeros hc
  have hnat : Digits.toNat 10 (ds ++ List.replicate k '0' ++ ['0']) =
      10 ^ (k + 1) * Digits.toNat 10 ds := by
    rw [List.append_assoc, ← List.replicate_succ', Digits.toNat_ten hd, Digits.toNat_ten,
      Nat.ofDigitChars_append, Nat.ofDigitChars_replicate_zero]
    intro c hc
    rcases List.mem_append.mp hc with hc | hc
    · exact hd c hc
    · exact isDigit_of_mem_zeros hc
  have hwrites := Writes.positional _ ['0'] (by simp [hne]) (by simp) hall (by simp)
  have hvalue : ((10 ^ (k + 1) * Digits.toNat 10 ds : ℕ) : ℚ) * 10 ^ (-(['0'].length : Int)) =
      Digits.toNat 10 ds * 10 ^ (k : Int) := by
    push_cast
    rw [pow_succ, List.length_singleton, Nat.cast_one, zpow_neg_one, zpow_natCast]
    ring
  rw [hnat, hvalue] at hwrites
  exact hwrites

theorem writes_point (hd : ∀ c ∈ ds, c.isDigit = true) (he : e < 0) (hk : 0 < k)
    (hlength : (k : Int) = e + ds.length) :
    Writes (ds.take k ++ '.' :: ds.drop k) (Digits.toNat 10 ds * 10 ^ e) := by
  have hdrop : -((ds.drop k).length : Int) = e := by
    rw [List.length_drop]
    omega
  have htaken : 0 < (ds.take k).length := by
    rw [List.length_take]
    omega
  have hdropped : 0 < (ds.drop k).length := by omega
  have hwrites := Writes.positional _ _ (List.ne_nil_of_length_pos htaken)
    (List.ne_nil_of_length_pos hdropped) (fun c hc => hd c (List.mem_of_mem_take hc))
    (fun c hc => hd c (List.mem_of_mem_drop hc))
  rwa [List.take_append_drop, hdrop] at hwrites

end Notations

theorem writes_magnitudeText (style : TextStyle) (x : Binary64) :
    Writes (x.magnitudeText style) x.shortest.value := by
  have hd : ∀ c ∈ Nat.toDigits 10 x.shortest.digits, c.isDigit = true :=
    fun c => Digits.isDigit_of_mem_toDigits
  have hne : Nat.toDigits 10 x.shortest.digits ≠ [] := Nat.toDigits_ne_nil
  have hnat := Digits.toNat_toDigits x.shortest.digits
  unfold magnitudeText Decimal.value
  simp only
  generalize Nat.toDigits 10 x.shortest.digits = ds at *
  rw [← hnat]
  split
  next hzero =>
    have hwrites := Writes.positional ['0'] ['0'] (by simp) (by simp)
      (by simp) (by simp)
    have hzeros : Digits.toNat 10 (['0'] ++ ['0']) = 0 := rfl
    rw [hzeros, Nat.cast_zero, zero_mul] at hwrites
    rw [hzero, Nat.cast_zero, zero_mul]
    exact hwrites
  next =>
    have hlength : 0 < ds.length := List.length_pos_iff.mpr hne
    split
    next =>
      obtain ⟨c, ds, rfl⟩ := List.exists_cons_of_ne_nil hne
      have hwrites := writes_scientific hd (e := x.shortest.exponent) rfl
      cases ds with
      | nil => exact hwrites
      | cons b ds => exact hwrites
    next =>
      split
      next => exact writes_fraction hd hne (by omega)
      next =>
        split
        next hwhole => exact writes_whole hd hne hwhole
        next => exact writes_point hd (by omega) (by omega) (by omega)

theorem text_inj (h : x.text = y.text) : x = y := by
  have hx := writes_magnitudeText standardStyle x
  have hy := writes_magnitudeText standardStyle y
  obtain ⟨⟨c, cs, hc, hcd⟩, -⟩ := hx.numeral
  obtain ⟨⟨b, bs, hb, hbd⟩, -⟩ := hy.numeral
  have hsign : x.negative = y.negative ∧
      x.magnitudeText standardStyle = y.magnitudeText standardStyle := by
    unfold text at h
    cases hxn : x.negative <;> cases hyn : y.negative
    · simpa [hxn, hyn] using h
    · -- a digit is no sign
      rw [hxn, hyn, hc] at h
      obtain rfl : c = '-' := by simpa using (List.cons.inj h).1
      cases hcd
    · rw [hxn, hyn, hb] at h
      obtain rfl : '-' = b := by simpa using (List.cons.inj h).1
      cases hbd
    · simpa [hxn, hyn] using h
  have hscan := hx.scanned?
  rw [hsign.2, hy.scanned?] at hscan
  exact eq_of_shortest_value hsign.1 (Option.some.inj hscan).symm

end Text

end Binary64

end Mudlib
