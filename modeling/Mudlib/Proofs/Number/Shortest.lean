import Mathlib.Algebra.Order.Field.Power
import Mathlib.Data.Rat.Cast.Order
import Mathlib.Tactic.Linarith
import Mathlib.Tactic.Positivity
import Mathlib.Tactic.FieldSimp
import Mathlib.Tactic.Ring
import Mudlib.Number.Shortest
/-!
The shortest decimal of a binary number reads back as that number and as no other of its sign.

All is said in the rationals: a number is worth `significand * place`, and a decimal reads back as it
when four times the decimal lies between two bounds in units of the place.
-/
set_option autoImplicit false

namespace Mudlib

namespace Decimal

def value (d : Decimal) : ℚ := d.digits * 10 ^ d.exponent

theorem powerOfTen_spec (e : Int) :
    0 < (powerOfTen e).2 ∧ ((powerOfTen e).1 : ℚ) = 10 ^ e * (powerOfTen e).2 := by
  unfold powerOfTen
  split
  next he =>
    obtain ⟨n, rfl⟩ := Int.eq_ofNat_of_zero_le he
    simp
  next he =>
    obtain ⟨n, rfl⟩ := Int.exists_eq_neg_ofNat (by omega : e ≤ 0)
    refine ⟨Nat.pow_pos (by decide), ?_⟩
    simp

end Decimal

namespace Binary64

variable {x y : Binary64} {d : Decimal} {v : ℚ}

def place (x : Binary64) : ℚ := 2 ^ ((x.scale : ℤ) - 1074)

def magnitude (x : Binary64) : ℚ := x.significand * x.place

theorem place_pos (x : Binary64) : 0 < x.place := by
  unfold place
  positivity

theorem ratio_spec (x : Binary64) :
    0 < x.ratio.2 ∧ (x.ratio.1 : ℚ) = x.magnitude * x.ratio.2 := by
  unfold ratio magnitude place
  split
  next h =>
    obtain ⟨k, hk⟩ := Nat.exists_eq_add_of_le h
    simp [hk]
  next h =>
    obtain ⟨k, hk⟩ := Nat.exists_eq_add_of_lt (Nat.lt_of_not_le h)
    refine ⟨Nat.pow_pos (by decide), ?_⟩
    have hexp : (x.scale : ℤ) - 1074 = -((1074 - x.scale : ℕ) : ℤ) := by omega
    simp [hexp]

/-- The lower bound on what reads back, in quarters of the place; the place below a power of two is
half as wide. -/
def lowest (x : Binary64) : Nat :=
  if x.scale ≠ 0 ∧ x.significand = 2 ^ 52 then 4 * x.significand - 1
  else 4 * x.significand - 2

def highest (x : Binary64) : Nat := 4 * x.significand + 2

/-- The value lies between the midpoints to the two neighbouring numbers. -/
def Covers (x : Binary64) (v : ℚ) : Prop :=
  if x.significand % 2 = 0 then x.lowest * x.place ≤ 4 * v ∧ 4 * v ≤ x.highest * x.place
  else x.lowest * x.place < 4 * v ∧ 4 * v < x.highest * x.place

theorem Covers.le (h : x.Covers v) : x.lowest * x.place ≤ 4 * v ∧ 4 * v ≤ x.highest * x.place := by
  unfold Covers at h
  split at h
  · exact h
  · exact ⟨h.1.le, h.2.le⟩

theorem covers_of_lt (hlow : x.lowest * x.place < 4 * v) (hhigh : 4 * v < x.highest * x.place) :
    x.Covers v := by
  unfold Covers
  split
  · exact ⟨hlow.le, hhigh.le⟩
  · exact ⟨hlow, hhigh⟩

/-- The comparison in whole numbers is the one in the rationals, scaled up. -/
theorem readsBack_iff (hx : x.significand ≠ 0) : x.readsBack d = true ↔ x.Covers d.value := by
  obtain ⟨hden, hnum⟩ := x.ratio_spec
  obtain ⟨hp, hpow⟩ := Decimal.powerOfTen_spec d.exponent
  have hscale : (0 : ℚ) < x.significand * x.ratio.2 * (Decimal.powerOfTen d.exponent).2 := by
    have hsig : 0 < x.significand := Nat.pos_of_ne_zero hx
    positivity
  have hleft : ((4 * x.significand * (d.digits * (Decimal.powerOfTen d.exponent).1) * x.ratio.2 : ℕ)
      : ℚ) = x.significand * x.ratio.2 * (Decimal.powerOfTen d.exponent).2 * (4 * d.value) := by
    push_cast
    rw [hpow, Decimal.value]
    ring
  have hbound : ∀ b : ℕ, ((b * (x.ratio.1 * (Decimal.powerOfTen d.exponent).2) : ℕ) : ℚ) =
      x.significand * x.ratio.2 * (Decimal.powerOfTen d.exponent).2 * (b * x.place) := by
    intro b
    push_cast
    rw [hnum, magnitude]
    ring
  have hle : ∀ b : ℕ, b * (x.ratio.1 * (Decimal.powerOfTen d.exponent).2) ≤
      4 * x.significand * (d.digits * (Decimal.powerOfTen d.exponent).1) * x.ratio.2 ↔
        b * x.place ≤ 4 * d.value := by
    intro b
    rw [← Nat.cast_le (α := ℚ), hleft, hbound, mul_le_mul_iff_right₀ hscale]
  have hge : ∀ b : ℕ, 4 * x.significand * (d.digits * (Decimal.powerOfTen d.exponent).1) *
      x.ratio.2 ≤ b * (x.ratio.1 * (Decimal.powerOfTen d.exponent).2) ↔
        4 * d.value ≤ b * x.place := by
    intro b
    rw [← Nat.cast_le (α := ℚ), hleft, hbound, mul_le_mul_iff_right₀ hscale]
  simp only [readsBack, Covers, lowest, highest, Nat.pow_eq]
  split <;> simp only [Bool.and_eq_true, decide_eq_true_eq, ← not_le, hle, hge]

theorem not_covers_both (hle : x.highest * x.place ≤ y.lowest * y.place)
    (hlt : x.significand % 2 = 0 → y.significand % 2 = 0 →
      x.highest * x.place < y.lowest * y.place)
    (hx : x.Covers v) (hy : y.Covers v) : False := by
  have hhigh := hx.le.2
  have hlow := hy.le.1
  unfold Covers at hx hy
  split at hx
  next hxe =>
    split at hy
    next hye => linarith [hlt hxe hye]
    next => linarith [hy.1]
  next => linarith [hx.2]

theorem not_covers_both_of_scale_eq (hscale : x.scale = y.scale)
    (hsig : x.significand < y.significand) (hx : x.Covers v) (hy : y.Covers v) : False := by
  have hplace : x.place = y.place := by rw [place, place, hscale]
  have hpos := y.place_pos
  have hle : x.highest ≤ y.lowest := by
    unfold highest lowest
    split <;> omega
  refine not_covers_both ?_ ?_ hx hy
  · rw [hplace]
    gcongr
  · intro hxe hye
    have hlt : x.highest < y.lowest := by
      unfold highest lowest
      split <;> omega
    rw [hplace]
    gcongr

theorem not_covers_both_of_scale_lt (hscale : x.scale < y.scale) (hx : x.Covers v)
    (hy : y.Covers v) : False := by
  have hpos := x.place_pos
  have hplace : 2 * x.place ≤ y.place := by
    obtain ⟨k, hk⟩ := Nat.exists_eq_add_of_lt hscale
    have hexp : (y.scale : ℤ) - 1074 = ((x.scale : ℤ) - 1074) + ((k + 1 : ℕ) : ℤ) := by
      rw [hk]
      push_cast
      ring
    have hpow : (2 : ℚ) ≤ 2 ^ (k + 1) := by
      simpa using pow_le_pow_right₀ (by norm_num : (1 : ℚ) ≤ 2) (Nat.le_add_left 1 k)
    rw [place, place, hexp, zpow_add₀ (by norm_num), zpow_natCast, mul_comm]
    gcongr
  -- the number with the greater scale has the leading bit, so its place outweighs
  have hfits : x.significand < 2 ^ 53 := x.fits
  have hlead : 2 ^ 52 ≤ y.significand := y.normal.resolve_left (by omega)
  have hlow : (y.lowest : ℚ) * (2 * x.place) ≤ y.lowest * y.place := by gcongr
  refine not_covers_both ?_ ?_ hx hy
  · have hle : x.highest ≤ 2 * y.lowest := by
      unfold highest lowest
      split <;> omega
    have hcast : (x.highest : ℚ) ≤ 2 * y.lowest := by exact_mod_cast hle
    nlinarith
  · intro hxe hye
    have hlt : x.highest < 2 * y.lowest := by
      unfold highest lowest
      split <;> omega
    have hcast : (x.highest : ℚ) < 2 * y.lowest := by exact_mod_cast hlt
    nlinarith

theorem Covers.unique (hx : x.Covers v) (hy : y.Covers v) :
    x.significand = y.significand ∧ x.scale = y.scale := by
  rcases Nat.lt_trichotomy x.scale y.scale with hlt | hscale | hlt
  · exact (not_covers_both_of_scale_lt hlt hx hy).elim
  · refine ⟨?_, hscale⟩
    rcases Nat.lt_trichotomy x.significand y.significand with hlt | heq | hlt
    · exact (not_covers_both_of_scale_eq hscale hlt hx hy).elim
    · exact heq
    · exact (not_covers_both_of_scale_eq hscale.symm hlt hy hx).elim
  · exact (not_covers_both_of_scale_lt hlt hy hx).elim

section Grid

/-- What lies within half a step of the number reads back, on a grid of sixteen more digits. -/
theorem covers_of_near {g : ℚ} (hx : x.significand ≠ 0) (hfine : g * 10 ^ 16 ≤ x.magnitude)
    (hbelow : 2 * (x.magnitude - v) ≤ g) (habove : 2 * (v - x.magnitude) ≤ g) : x.Covers v := by
  have hpos := x.place_pos
  have hfits : x.significand < 2 ^ 53 := x.fits
  unfold magnitude at hfine hbelow habove
  have hsig : (x.significand : ℚ) < 2 ^ 53 := by exact_mod_cast hfits
  have hwide : (x.significand : ℚ) * x.place ≤ 2 ^ 53 * x.place := by gcongr
  refine covers_of_lt ?_ ?_
  · unfold lowest
    split
    next hnarrow =>
      have hlow : ((4 * x.significand - 1 : ℕ) : ℚ) = 4 * x.significand - 1 := by
        rw [Nat.cast_sub (by omega)]
        push_cast
        ring
      have heq : (x.significand : ℚ) = 2 ^ 52 := by exact_mod_cast hnarrow.2
      rw [hlow]
      rw [heq] at hfine hbelow ⊢
      linarith
    next =>
      have hlow : ((4 * x.significand - 2 : ℕ) : ℚ) = 4 * x.significand - 2 := by
        rw [Nat.cast_sub (by omega)]
        push_cast
        ring
      rw [hlow]
      linarith
  · unfold highest
    push_cast
    linarith

theorem onGrid?_readsBack {e : ℤ} (h : x.onGrid? e = some d) : x.readsBack d = true := by
  simp only [onGrid?] at h
  split at h
  next hbelow habove =>
    split at h
    · exact Option.some.inj h ▸ hbelow
    · split at h
      · exact Option.some.inj h ▸ habove
      · split at h
        · exact Option.some.inj h ▸ hbelow
        · exact Option.some.inj h ▸ habove
  next hbelow _ => exact Option.some.inj h ▸ hbelow
  next _ habove => exact Option.some.inj h ▸ habove
  next => cases h

def stepsBelow (x : Binary64) (e : ℤ) : Nat :=
  x.ratio.1 * (Decimal.powerOfTen e).2 / (x.ratio.2 * (Decimal.powerOfTen e).1)

theorem magnitude_on_grid (x : Binary64) (e : ℤ) :
    ∃ f : ℚ, 0 ≤ f ∧ f < 1 ∧ x.magnitude = (x.stepsBelow e + f) * 10 ^ e := by
  obtain ⟨hden, hnum⟩ := x.ratio_spec
  obtain ⟨hp, hpow⟩ := Decimal.powerOfTen_spec e
  have hstep : (0 : ℚ) < 10 ^ e := by positivity
  unfold stepsBelow
  generalize hn : x.ratio.1 * (Decimal.powerOfTen e).2 = num
  generalize hd : x.ratio.2 * (Decimal.powerOfTen e).1 = den
  have hscaled : (num : ℚ) * 10 ^ e = x.magnitude * den := by
    rw [← hn, ← hd]
    push_cast
    rw [hnum, hpow]
    ring
  have hdenpos : (0 : ℚ) < den := by
    rw [← hd]
    push_cast
    rw [hpow]
    positivity
  have hsplit : (num : ℚ) = den * (num / den : ℕ) + (num % den : ℕ) := by
    exact_mod_cast (Nat.div_add_mod num den).symm
  refine ⟨(num % den : ℕ) / den, by positivity, ?_, ?_⟩
  · rw [div_lt_one hdenpos]
    exact_mod_cast Nat.mod_lt _ (by exact_mod_cast hdenpos)
  · rw [hsplit] at hscaled
    field_simp
    linarith

theorem onGrid?_isSome_iff {e : ℤ} : (x.onGrid? e).isSome = true ↔
    x.readsBack ⟨x.stepsBelow e, e⟩ = true ∨ x.readsBack ⟨x.stepsBelow e + 1, e⟩ = true := by
  simp only [onGrid?, stepsBelow]
  split
  next hbelow _ =>
    refine iff_of_true ?_ (.inl hbelow)
    split
    · rfl
    · split
      · rfl
      · split <;> rfl
  next hbelow _ => exact iff_of_true rfl (.inl hbelow)
  next _ habove => exact iff_of_true rfl (.inr habove)
  next hbelow habove => simp [hbelow, habove]

/-- Of the two neighbours on a grid that is fine enough the nearer reads back. -/
theorem onGrid?_isSome {e : ℤ} (hx : x.significand ≠ 0) (hfine : 10 ^ e * 10 ^ 16 ≤ x.magnitude) :
    (x.onGrid? e).isSome = true := by
  obtain ⟨f, hf₀, hf₁, hgrid⟩ := x.magnitude_on_grid e
  have hstep : (0 : ℚ) < 10 ^ e := by positivity
  rw [onGrid?_isSome_iff, readsBack_iff hx, readsBack_iff hx]
  rcases le_total (2 * f) 1 with hhalf | hhalf
  · left
    refine covers_of_near hx hfine ?_ ?_ <;> rw [hgrid, Decimal.value] <;> nlinarith
  · right
    refine covers_of_near hx hfine ?_ ?_ <;> rw [hgrid, Decimal.value] <;> push_cast <;> nlinarith

theorem shortestFrom_readsBack {n k : Nat} {e : ℤ} (hk : k < n)
    (h : (x.onGrid? (e - k)).isSome = true) : x.readsBack (x.shortestFrom n e) = true := by
  induction n generalizing k e with
  | zero => cases hk
  | succ n ih =>
    simp only [shortestFrom]
    split
    next d hd => exact onGrid?_readsBack hd
    next hn =>
      cases k with
      | zero => simp [hn] at h
      | succ k =>
        refine ih (Nat.lt_of_succ_lt_succ hk) (k := k) ?_
        rwa [Nat.cast_succ, ← sub_sub, sub_right_comm] at h

end Grid

section Leading

/-- The estimate of a decimal logarithm from a binary one, `100000 * log 2 < 30103 * log 10`. -/
theorem two_pow_le_ten_pow {k m : ℕ} (h : 30103 * k ≤ 100000 * m) : 2 ^ k ≤ 10 ^ m := by
  have hbase : 2 ^ 100000 ≤ 10 ^ 30103 := by decide +kernel
  refine (Nat.pow_le_pow_iff_left (by decide : (100000 : ℕ) ≠ 0)).mp ?_
  calc (2 ^ k) ^ 100000 = (2 ^ 100000) ^ k := by rw [← pow_mul, ← pow_mul, mul_comm]
    _ ≤ (10 ^ 30103) ^ k := Nat.pow_le_pow_left hbase k
    _ = 10 ^ (30103 * k) := by rw [← pow_mul]
    _ ≤ 10 ^ (100000 * m) := Nat.pow_le_pow_right (by decide) h
    _ = (10 ^ m) ^ 100000 := by rw [← pow_mul, mul_comm]

theorem ten_pow_le_two_pow {k m : ℕ} (h : 100000 * m ≤ 30103 * k) (hk : k ≤ 100000) :
    10 ^ m ≤ 2 ^ (k + 1) := by
  have hbase : 10 ^ 30103 ≤ 2 ^ 100001 := by decide +kernel
  refine (Nat.pow_le_pow_iff_left (by decide : (100000 : ℕ) ≠ 0)).mp ?_
  calc (10 ^ m) ^ 100000 = 10 ^ (100000 * m) := by rw [← pow_mul, mul_comm]
    _ ≤ 10 ^ (30103 * k) := Nat.pow_le_pow_right (by decide) h
    _ = (10 ^ 30103) ^ k := by rw [← pow_mul]
    _ ≤ (2 ^ 100001) ^ k := Nat.pow_le_pow_left hbase k
    _ = 2 ^ (100001 * k) := by rw [← pow_mul]
    _ ≤ 2 ^ ((k + 1) * 100000) := Nat.pow_le_pow_right (by decide) (by omega)
    _ = (2 ^ (k + 1)) ^ 100000 := by rw [← pow_mul]

theorem ten_zpow_le_two_zpow {l : ℤ} (hl : l ≤ 100000) :
    (10 : ℚ) ^ (l * 30103 / 100000 - 1) ≤ 2 ^ l := by
  rcases lt_or_ge l 0 with hneg | hpos
  · -- both are reciprocals of powers
    obtain ⟨k, rfl⟩ := Int.exists_eq_neg_ofNat hneg.le
    obtain ⟨m, hm⟩ := Int.exists_eq_neg_ofNat (by omega : -(k : ℤ) * 30103 / 100000 - 1 ≤ 0)
    have hle : 2 ^ k ≤ 10 ^ m := two_pow_le_ten_pow (by omega)
    rw [hm, zpow_neg, zpow_neg, zpow_natCast, zpow_natCast]
    gcongr
    exact_mod_cast hle
  · obtain ⟨k, rfl⟩ := Int.eq_ofNat_of_zero_le hpos
    rcases lt_or_ge ((k : ℤ) * 30103 / 100000 - 1) 0 with hsmall | hlarge
    · calc (10 : ℚ) ^ ((k : ℤ) * 30103 / 100000 - 1) ≤ 1 :=
            zpow_le_one_of_nonpos₀ (by norm_num) hsmall.le
        _ ≤ 2 ^ (k : ℤ) := one_le_zpow₀ (by norm_num) (Int.natCast_nonneg k)
    · obtain ⟨m, hm⟩ := Int.eq_ofNat_of_zero_le hlarge
      have hle : 10 ^ (m + 1) ≤ 2 ^ (k + 1) := ten_pow_le_two_pow (by omega) (by omega)
      have hcast : (10 : ℚ) ^ m * 10 ≤ 2 ^ k * 2 := by
        rw [← pow_succ, ← pow_succ]
        exact_mod_cast hle
      have hnonneg : (0 : ℚ) ≤ 2 ^ k := by positivity
      rw [hm, zpow_natCast, zpow_natCast]
      linarith

theorem two_zpow_log2Ratio_le {num den : ℕ} (hnum : num ≠ 0) :
    (2 : ℚ) ^ log2Ratio num den * den ≤ num := by
  have hlow : ((2 : ℚ) ^ num.log2) ≤ num := by exact_mod_cast Nat.log2_self_le hnum
  have hhigh : (den : ℚ) ≤ 2 ^ (den.log2 + 1) := by exact_mod_cast Nat.lt_log2_self.le
  have hone : ((2 : ℚ) ^ ((num.log2 : ℤ) - den.log2 - 1)) * den ≤ num := by
    calc ((2 : ℚ) ^ ((num.log2 : ℤ) - den.log2 - 1)) * den
        ≤ (2 : ℚ) ^ ((num.log2 : ℤ) - den.log2 - 1) * 2 ^ (den.log2 + 1) := by gcongr
      _ = 2 ^ num.log2 := by
        rw [← zpow_natCast, ← zpow_natCast, ← zpow_add₀ (by norm_num)]
        congr 1
        push_cast
        ring
      _ ≤ num := hlow
  simp only [log2Ratio, Nat.pow_eq]
  split
  next hk =>
    split
    next hreached =>
      obtain ⟨k, hk⟩ := Int.eq_ofNat_of_zero_le hk
      rw [hk] at hreached ⊢
      rw [zpow_natCast, mul_comm]
      exact_mod_cast hreached
    next => exact hone
  next hk =>
    split
    next hreached =>
      obtain ⟨k, hk⟩ := Int.exists_eq_neg_ofNat (by omega : (num.log2 : ℤ) - den.log2 ≤ 0)
      rw [hk] at hreached ⊢
      simp only [neg_neg, Int.toNat_natCast] at hreached
      have hcast : (den : ℚ) ≤ num * 2 ^ k := by exact_mod_cast hreached
      rw [zpow_neg, zpow_natCast, inv_mul_le_iff₀ (by positivity), mul_comm]
      exact hcast
    next => exact hone

theorem magnitude_lt (x : Binary64) : x.magnitude < 2 ^ (1024 : ℤ) := by
  have hfits : x.significand < 2 ^ 53 := x.fits
  have hsig : (x.significand : ℚ) < 2 ^ (53 : ℤ) := by exact_mod_cast hfits
  have hrange := x.range
  have hplace : x.place ≤ 2 ^ (971 : ℤ) := by
    unfold place
    gcongr
    · norm_num
    · omega
  have hpos := x.place_pos
  calc x.magnitude < 2 ^ (53 : ℤ) * x.place := by
        unfold magnitude
        gcongr
    _ ≤ 2 ^ (53 : ℤ) * 2 ^ (971 : ℤ) := by gcongr
    _ = 2 ^ (1024 : ℤ) := by rw [← zpow_add₀ (by norm_num)]; norm_num

end Leading

end Binary64

namespace Decimal

variable {d : Decimal}

theorem le_iff {num den : ℕ} : d.le num den = true ↔ d.value * den ≤ num := by
  obtain ⟨hp, hpow⟩ := powerOfTen_spec d.exponent
  have hscale : (0 : ℚ) < (powerOfTen d.exponent).2 := by exact_mod_cast hp
  have hleft : ((d.digits * (powerOfTen d.exponent).1 * den : ℕ) : ℚ) =
      d.value * den * (powerOfTen d.exponent).2 := by
    push_cast
    rw [hpow, value]
    ring
  simp only [le, decide_eq_true_eq]
  rw [← Nat.cast_le (α := ℚ), hleft, Nat.cast_mul, mul_le_mul_iff_left₀ hscale]

theorem leadingExponent_le {num den : ℕ} (hnum : num ≠ 0)
    (hl : Binary64.log2Ratio num den ≤ 100000) :
    (10 : ℚ) ^ leadingExponent num den * den ≤ num := by
  have hvalue : ∀ {e : ℤ}, le ⟨1, e⟩ num den = true → (10 : ℚ) ^ e * den ≤ num := by
    intro e he
    simpa [value] using le_iff.mp he
  simp only [leadingExponent]
  split
  next h => exact hvalue h
  next =>
    split
    next h => exact hvalue h
    next =>
      split
      next h => exact hvalue h
      next =>
        calc (10 : ℚ) ^ (Binary64.log2Ratio num den * 30103 / 100000 - 1) * den
            ≤ 2 ^ Binary64.log2Ratio num den * den := by
              gcongr
              exact Binary64.ten_zpow_le_two_zpow hl
          _ ≤ num := Binary64.two_zpow_log2Ratio_le hnum

theorem value_strip (n : ℕ) (d : Decimal) : (d.strip n).value = d.value := by
  induction n generalizing d with
  | zero => rfl
  | succ n ih =>
    simp only [strip]
    split
    next h =>
      obtain ⟨k, hk⟩ := Nat.dvd_of_mod_eq_zero h.2
      rw [ih, value, value, hk, Nat.mul_div_cancel_left k (by decide), zpow_add₀ (by norm_num)]
      push_cast
      ring
    next => rfl

end Decimal

namespace Binary64

variable {x y : Binary64}

/-- The shortest decimal reads back: sixteen digits behind the leading one are always enough. -/
theorem covers_shortest (hx : x.significand ≠ 0) : x.Covers x.shortest.value := by
  obtain ⟨hden, hnum⟩ := x.ratio_spec
  have hdenpos : (0 : ℚ) < x.ratio.2 := by exact_mod_cast hden
  have hmagnitude : 0 < x.magnitude := by
    have hsig : 0 < x.significand := Nat.pos_of_ne_zero hx
    have hpos := x.place_pos
    unfold magnitude
    positivity
  have hnum₀ : x.ratio.1 ≠ 0 := by
    have hpos : (0 : ℚ) < x.ratio.1 := hnum ▸ mul_pos hmagnitude hdenpos
    exact_mod_cast hpos.ne'
  have hlog : log2Ratio x.ratio.1 x.ratio.2 ≤ 100000 := by
    have hle := @two_zpow_log2Ratio_le _ x.ratio.2 hnum₀
    rw [hnum, mul_le_mul_iff_left₀ hdenpos] at hle
    have hlt := (zpow_lt_zpow_iff_right₀ (by norm_num : (1 : ℚ) < 2)).mp
      (lt_of_le_of_lt hle x.magnitude_lt)
    omega
  have hlead : (10 : ℚ) ^ Decimal.leadingExponent x.ratio.1 x.ratio.2 ≤ x.magnitude := by
    have hle := Decimal.leadingExponent_le hnum₀ hlog
    rwa [hnum, mul_le_mul_iff_left₀ hdenpos] at hle
  have hhit := onGrid?_isSome (e := Decimal.leadingExponent x.ratio.1 x.ratio.2 - (16 : ℕ)) hx (by
    rw [← zpow_natCast, ← zpow_add₀ (by norm_num), Nat.cast_ofNat, sub_add_cancel]
    exact hlead)
  have hreads := shortestFrom_readsBack (n := 17) (by decide : 16 < 17) hhit
  rw [readsBack_iff hx] at hreads
  rw [shortest, if_neg hx, Decimal.value_strip]
  exact hreads

theorem shortest_value_pos (hx : x.significand ≠ 0) : 0 < x.shortest.value := by
  have hlow := (covers_shortest hx).le.1
  have hpos := x.place_pos
  have hlowest : 0 < x.lowest := by
    unfold lowest
    split <;> omega
  have hcast : (0 : ℚ) < x.lowest * x.place := by positivity
  linarith

theorem shortest_value_eq_zero_iff : x.shortest.value = 0 ↔ x.significand = 0 := by
  constructor
  · intro h
    by_contra hx
    exact (shortest_value_pos hx).ne' h
  · intro hx
    simp [shortest, hx, Decimal.value]

theorem eq_of_shortest_value (hneg : x.negative = y.negative)
    (h : x.shortest.value = y.shortest.value) : x = y := by
  have hparts : x.significand = y.significand ∧ x.scale = y.scale := by
    by_cases hx : x.significand = 0
    · have hy : y.significand = 0 := by
        rwa [← shortest_value_eq_zero_iff, ← h, shortest_value_eq_zero_iff]
      have hxs : x.scale = 0 := x.normal.resolve_right (by rw [hx]; decide)
      have hys : y.scale = 0 := y.normal.resolve_right (by rw [hy]; decide)
      exact ⟨hx.trans hy.symm, hxs.trans hys.symm⟩
    · have hy : y.significand ≠ 0 := by
        rwa [ne_eq, ← shortest_value_eq_zero_iff, ← h, shortest_value_eq_zero_iff]
      exact (covers_shortest hx).unique (h ▸ covers_shortest hy)
  cases x
  cases y
  simp only [mk.injEq]
  exact ⟨hneg, hparts.1, hparts.2⟩

end Binary64

end Mudlib
