import Mathlib.Algebra.Order.Field.Power
import Mathlib.Data.Rat.Cast.Order
import Mathlib.Tactic.FieldSimp
import Mathlib.Tactic.GCongr
import Mathlib.Tactic.Linarith
import Mathlib.Tactic.NormNum
import Mathlib.Tactic.Positivity
import Mathlib.Tactic.Ring
import NotebookTidy.Decimal.Double

/-! Rounding to a double.

The exponent that is chosen for a quotient leaves it below `2 ^ 53` (`lt_exponentOf`), and not
below `2 ^ 52` unless it is the least exponent there is (`exponentOf_le`). So what is rounded to
is a finite double (`finite_nearest`), and no further from the quotient than half a unit of its
last place (`abs_value_sub_le`). -/
namespace NotebookTidy.Decimal
namespace Magnitude

theorem twoTo_eq (n : Nat) : twoTo n = 2 ^ n := rfl

/-- A double that there is. Its significand has all of its 53 bits, unless the exponent is the
least one. Zero may have any exponent. -/
structure Finite (m : Magnitude) : Prop where
  significand : m.significand < 2 ^ 53
  low : minExponent ≤ m.exponent
  high : m.exponent ≤ maxExponent
  normal : m.significand ≠ 0 → minExponent < m.exponent → 2 ^ 52 ≤ m.significand

theorem finite_zero : Finite ⟨0, minExponent⟩ := ⟨by decide, by decide, by decide, by decide⟩

/-- The number that a magnitude stands for. -/
def value (m : Magnitude) : ℚ := m.significand * 2 ^ m.exponent

variable {num den : Nat}

theorem scaled_pos (num : Nat) (hden : 0 < den) (e : Int) : 0 < (scaled num den e).2 := by
  rw [scaled]
  split
  · exact Nat.mul_pos hden (Nat.pow_pos (by decide))
  · exact hden

/-- What is scaled is divided by a power of two. -/
theorem scaled_eq (num den : Nat) (e : Int) :
    ((scaled num den e).1 : ℚ) / (scaled num den e).2 = num / den / 2 ^ e := by
  rw [scaled]
  split
  · next he =>
    obtain ⟨k, rfl⟩ := Int.eq_ofNat_of_zero_le he
    simp [twoTo_eq, div_div]
  · next he =>
    obtain ⟨k, hk⟩ := Int.eq_ofNat_of_zero_le (show 0 ≤ -e by omega)
    obtain rfl : e = -(k : Int) := by omega
    simp [twoTo_eq, mul_div_right_comm]

theorem two_zpow_le {a b : Int} (h : a ≤ b) : (2 : ℚ) ^ a ≤ 2 ^ b :=
  zpow_le_zpow_right₀ (by norm_num) h

theorem le_of_two_zpow_lt {a b : Int} (h : (2 : ℚ) ^ a < 2 ^ (b + 1)) : a ≤ b :=
  Int.lt_add_one_iff.mp ((zpow_lt_zpow_iff_right₀ (by norm_num)).mp h)

/-- A quotient compared with a power of two, by the lengths of its two numbers. -/
theorem lt_two_zpow_of_log2 (num : Nat) (hden : 0 < den) :
    (num : ℚ) / den < 2 ^ ((Nat.log2 num : Int) - Nat.log2 den + 1) := by
  have hnum : (num : ℚ) < 2 ^ (Nat.log2 num + 1) := by exact_mod_cast Nat.lt_log2_self
  have hlow : (2 : ℚ) ^ Nat.log2 den ≤ den := by
    exact_mod_cast Nat.log2_self_le (Nat.pos_iff_ne_zero.mp hden)
  have hpos : (0 : ℚ) < 2 ^ Nat.log2 den := by positivity
  calc (num : ℚ) / den ≤ num / 2 ^ Nat.log2 den := by gcongr
    _ < 2 ^ (Nat.log2 num + 1) / 2 ^ Nat.log2 den := by gcongr
    _ = 2 ^ ((Nat.log2 num : Int) - Nat.log2 den + 1) := by
      rw [← zpow_natCast, ← zpow_natCast, ← zpow_sub₀ (by norm_num)]
      congr 1
      push_cast
      ring

theorem two_zpow_le_of_log2 (hnum : 0 < num) (hden : 0 < den) :
    2 ^ ((Nat.log2 num : Int) - Nat.log2 den - 1) ≤ (num : ℚ) / den := by
  have hlow : (2 : ℚ) ^ Nat.log2 num ≤ num := by
    exact_mod_cast Nat.log2_self_le (Nat.pos_iff_ne_zero.mp hnum)
  have hhigh : (den : ℚ) ≤ 2 ^ (Nat.log2 den + 1) := by
    exact_mod_cast (Nat.lt_log2_self (n := den)).le
  have hpos : (0 : ℚ) < den := by exact_mod_cast hden
  calc (2 : ℚ) ^ ((Nat.log2 num : Int) - Nat.log2 den - 1)
      = 2 ^ Nat.log2 num / 2 ^ (Nat.log2 den + 1) := by
        rw [← zpow_natCast, ← zpow_natCast, ← zpow_sub₀ (by norm_num)]
        congr 1
        push_cast
        ring
    _ ≤ num / den := by gcongr

/-- The exponent that is tried first. -/
def guessOf (num den : Nat) : Int := (Nat.log2 num : Int) - Nat.log2 den - 52

/-- Stated of the function and not of its values: there the kernel would evaluate the scaling. -/
theorem exponentOf_eq_fun : exponentOf = fun num den =>
    match scaled num den ((Nat.log2 num : Int) - Nat.log2 den - 52) with
    | (a, b) =>
      let e := if a < b * twoTo (precision - 1) then (Nat.log2 num : Int) - Nat.log2 den - 52 - 1
        else (Nat.log2 num : Int) - Nat.log2 den - 52
      max e minExponent := by
  delta exponentOf
  with_reducible rfl

theorem exponentOf_eq (num den : Nat) : exponentOf num den =
    max (if (scaled num den (guessOf num den)).1 < (scaled num den (guessOf num den)).2 * 2 ^ 52
      then guessOf num den - 1 else guessOf num den) minExponent := by
  rw [exponentOf_eq_fun]
  beta_reduce
  rw [← guessOf]
  generalize guessOf num den = guess
  generalize scaled num den guess = ab
  obtain ⟨a, b⟩ := ab
  rfl

theorem minExponent_le (num den : Nat) : minExponent ≤ exponentOf num den := by
  rw [exponentOf_eq]
  exact le_max_right _ _

/-- Scaled by its exponent, a quotient is below `2 ^ 53`. -/
theorem lt_exponentOf (num : Nat) (hden : 0 < den) :
    (num : ℚ) / den < 2 ^ (53 + exponentOf num den) := by
  have hguess : (num : ℚ) / den < 2 ^ (53 + guessOf num den) := by
    have hlt := lt_two_zpow_of_log2 num hden
    rwa [show (Nat.log2 num : Int) - Nat.log2 den + 1 = 53 + guessOf num den by
      rw [guessOf]; omega] at hlt
  have hpos : (0 : ℚ) < (scaled num den (guessOf num den)).2 := by
    exact_mod_cast scaled_pos num hden _
  rw [exponentOf_eq]
  split
  · next hbelow =>
    have hlt : (num : ℚ) / den / 2 ^ guessOf num den < 2 ^ (52 : Int) := by
      rw [← scaled_eq, div_lt_iff₀ hpos, mul_comm]
      exact_mod_cast hbelow
    rw [div_lt_iff₀ (by positivity), ← zpow_add₀ (by norm_num)] at hlt
    exact hlt.trans_le (two_zpow_le (by omega))
  · exact hguess.trans_le (two_zpow_le (by omega))

/-- Scaled by its exponent, a quotient is not below `2 ^ 52`, unless the exponent is the least
one. -/
theorem exponentOf_le (hnum : 0 < num) (hden : 0 < den) (h : minExponent < exponentOf num den) :
    (2 : ℚ) ^ (52 + exponentOf num den) ≤ num / den := by
  have hpos : (0 : ℚ) < (scaled num den (guessOf num den)).2 := by
    exact_mod_cast scaled_pos num hden _
  rw [exponentOf_eq] at h ⊢
  split at h
  · next hbelow =>
    rw [if_pos hbelow, max_eq_left (by omega)]
    refine le_trans (two_zpow_le ?_) (two_zpow_le_of_log2 hnum hden)
    rw [guessOf]
    omega
  · next hbelow =>
    rw [if_neg hbelow, max_eq_left (by omega), zpow_add₀ (by norm_num),
      ← le_div_iff₀ (by positivity), ← scaled_eq, le_div_iff₀ hpos, mul_comm]
    exact_mod_cast not_lt.mp hbelow

/-! ### Rounding a quotient -/

/-- What a quotient is rounded to is no further away than one half. -/
theorem abs_divideRounding_sub_le (a : Nat) {b : Nat} (hb : 0 < b) :
    |(divideRounding a b : ℚ) - a / b| ≤ 1 / 2 := by
  have hpos : (0 : ℚ) < b := by exact_mod_cast hb
  have ha : (a : ℚ) = b * (a / b : Nat) + (a % b : Nat) := by
    exact_mod_cast (Nat.div_add_mod a b).symm
  have hquotient : (a : ℚ) / b = (a / b : Nat) + (a % b : Nat) / b := by
    rw [ha, add_div, mul_div_cancel_left₀ _ hpos.ne']
  have hrest : ((a % b : Nat) : ℚ) / b < 1 := by
    rw [div_lt_one hpos]
    exact_mod_cast Nat.mod_lt a hb
  have hnonneg : (0 : ℚ) ≤ ((a % b : Nat) : ℚ) / b := by positivity
  rw [hquotient, divideRounding]
  split
  · next hup =>
    have htwice : b ≤ 2 * (a % b) := by
      simp only [Bool.or_eq_true, decide_eq_true_eq, Bool.and_eq_true, beq_iff_eq] at hup
      omega
    have hhalf : (1 : ℚ) / 2 ≤ ((a % b : Nat) : ℚ) / b := by
      rw [div_le_div_iff₀ (by norm_num) hpos]
      exact_mod_cast (by omega : 1 * b ≤ a % b * 2)
    rw [abs_le]
    push_cast
    constructor <;> linarith
  · next hdown =>
    have htwice : 2 * (a % b) ≤ b := by
      simp only [Bool.or_eq_true, decide_eq_true_eq, Bool.and_eq_true, beq_iff_eq, not_or,
        not_lt] at hdown
      exact hdown.1
    have hhalf : ((a % b : Nat) : ℚ) / b ≤ 1 / 2 := by
      rw [div_le_div_iff₀ hpos (by norm_num)]
      exact_mod_cast (by omega : a % b * 2 ≤ 1 * b)
    rw [abs_le]
    constructor <;> linarith

section
variable {a b n : Nat}

theorem divideRounding_le_of_lt (hb : 0 < b) (h : (a : ℚ) / b < n + 1 / 2) :
    divideRounding a b ≤ n := by
  have hnear := (abs_le.mp (abs_divideRounding_sub_le a hb)).2
  have hlt : (divideRounding a b : ℚ) < n + 1 := by linarith
  exact Nat.lt_succ_iff.mp (by exact_mod_cast hlt)

theorem le_divideRounding_of_lt (hb : 0 < b) (h : n - 1 / 2 < (a : ℚ) / b) :
    n ≤ divideRounding a b := by
  have hnear := (abs_le.mp (abs_divideRounding_sub_le a hb)).1
  have hlt : (n : ℚ) < divideRounding a b + 1 := by linarith
  exact Nat.lt_succ_iff.mp (by exact_mod_cast hlt)

theorem divideRounding_eq_of_close (hb : 0 < b) (h : |(a : ℚ) / b - n| < 1 / 2) :
    divideRounding a b = n := by
  obtain ⟨hlow, hhigh⟩ := abs_lt.mp h
  exact le_antisymm (divideRounding_le_of_lt hb (by linarith))
    (le_divideRounding_of_lt hb (by linarith))

theorem divideRounding_mul_right (a b : Nat) {k : Nat} (hk : 0 < k) :
    divideRounding (a * k) (b * k) = divideRounding a b := by
  have hlt : b * k < 2 * (a % b * k) ↔ b < 2 * (a % b) := by
    rw [← mul_assoc, Nat.mul_lt_mul_right hk]
  have heq : 2 * (a % b * k) = b * k ↔ 2 * (a % b) = b := by
    rw [← mul_assoc, Nat.mul_left_inj hk.ne']
  simp only [divideRounding, Nat.mul_div_mul_right a b hk, Nat.mul_mod_mul_right, Bool.or_eq_true,
    decide_eq_true_eq, Bool.and_eq_true, beq_iff_eq, hlt, heq]

/-- How a quotient is rounded does not depend on how it is written. -/
theorem divideRounding_congr {c d : Nat} (hb : 0 < b) (hd : 0 < d) (h : (a : ℚ) / b = c / d) :
    divideRounding a b = divideRounding c d := by
  have hb' : (b : ℚ) ≠ 0 := by exact_mod_cast hb.ne'
  have hd' : (d : ℚ) ≠ 0 := by exact_mod_cast hd.ne'
  have hcross : a * d = c * b := by
    rw [div_eq_div_iff hb' hd'] at h
    exact_mod_cast h
  rw [← divideRounding_mul_right a b hd, hcross, mul_comm b d, divideRounding_mul_right c d hb]

end

/-- A significand that is rounded up to `2 ^ 53` is carried into the exponent. -/
def carried (s : Nat) (e : Int) : Magnitude :=
  if s = twoTo precision then ⟨twoTo (precision - 1), e + 1⟩ else ⟨s, e⟩

theorem value_carried (s : Nat) (e : Int) : (carried s e).value = s * 2 ^ e := by
  have htwo : twoTo precision = 2 ^ 53 := by decide
  have hcarried : twoTo (precision - 1) = 2 ^ 52 := by decide
  rw [carried, value]
  split
  · next hcarry =>
    rw [hcarry, htwo, hcarried, zpow_add₀ (by norm_num)]
    push_cast
    ring
  · rfl

theorem le_exponent_carried (s : Nat) (e : Int) : e ≤ (carried s e).exponent := by
  rw [carried]
  split
  · exact (Int.lt_succ e).le
  · exact le_rfl

def rounded (s : Nat) (e : Int) : Option Magnitude :=
  if (carried s e).exponent ≤ maxExponent then some (carried s e) else none

/-- Stated of the function and not of its values: there the kernel would evaluate the scaling. -/
theorem nearest_eq_fun : nearest = fun num den =>
    match scaled num den (exponentOf num den) with
    | (a, b) =>
      let s := divideRounding a b
      let r : Magnitude := if s = twoTo precision
        then ⟨twoTo (precision - 1), exponentOf num den + 1⟩ else ⟨s, exponentOf num den⟩
      if r.exponent ≤ maxExponent then some r else none := by
  delta nearest
  with_reducible rfl

/-- The significand that a quotient is rounded to, before it is carried. -/
def significandOf (num den : Nat) : Nat :=
  divideRounding (scaled num den (exponentOf num den)).1 (scaled num den (exponentOf num den)).2

theorem nearest_eq (num den : Nat) :
    nearest num den = rounded (significandOf num den) (exponentOf num den) := by
  rw [nearest_eq_fun, significandOf]
  beta_reduce
  generalize exponentOf num den = e
  generalize scaled num den e = ab
  obtain ⟨a, b⟩ := ab
  rfl

theorem significandOf_le (num : Nat) (hden : 0 < den) : significandOf num den ≤ 2 ^ 53 := by
  refine divideRounding_le_of_lt (scaled_pos num hden _) ?_
  have hlt := lt_exponentOf num hden
  rw [zpow_add₀ (by norm_num), ← div_lt_iff₀ (by positivity)] at hlt
  rw [scaled_eq]
  push_cast
  linarith

theorem le_significandOf (hnum : 0 < num) (hden : 0 < den)
    (h : minExponent < exponentOf num den) : 2 ^ 52 ≤ significandOf num den := by
  refine le_divideRounding_of_lt (scaled_pos num hden _) ?_
  have hle := exponentOf_le hnum hden h
  rw [zpow_add₀ (by norm_num), ← le_div_iff₀ (by positivity)] at hle
  rw [scaled_eq]
  push_cast
  linarith

theorem significandOf_zero (hden : 0 < den) : significandOf 0 den = 0 := by
  refine divideRounding_eq_of_close (scaled_pos 0 hden _) ?_
  rw [scaled_eq]
  norm_num

/-- What a quotient is rounded to. -/
theorem nearest_eq_some {m : Magnitude} (h : nearest num den = some m) :
    m = carried (significandOf num den) (exponentOf num den) ∧ m.exponent ≤ maxExponent := by
  rw [nearest_eq, rounded] at h
  split at h
  · next hhigh => exact ⟨(Option.some.inj h).symm, Option.some.inj h ▸ hhigh⟩
  · cases h

theorem finite_nearest (hden : 0 < den) {m : Magnitude} (h : nearest num den = some m) :
    m.Finite := by
  obtain ⟨rfl, hhigh⟩ := nearest_eq_some h
  have hle := significandOf_le num hden
  have hlow := minExponent_le num den
  refine ⟨?_, hlow.trans (le_exponent_carried _ _), hhigh, ?_⟩
  · rw [carried]
    split
    · exact (by decide : twoTo (precision - 1) < 2 ^ 53)
    · next hfits => exact lt_of_le_of_ne hle hfits
  · rw [carried]
    split
    · exact fun _ _ => le_rfl
    · intro hsome hmore
      refine le_significandOf (Nat.pos_of_ne_zero fun hnum => hsome ?_) hden hmore
      rw [hnum]
      exact significandOf_zero hden

/-- What a quotient is rounded to is half a unit of the last place away at most. -/
theorem abs_value_sub_le (hden : 0 < den) {m : Magnitude} (h : nearest num den = some m) :
    |m.value - num / den| ≤ 2 ^ exponentOf num den / 2 := by
  obtain ⟨rfl, _⟩ := nearest_eq_some h
  have hpos : (0 : ℚ) < 2 ^ exponentOf num den := by positivity
  have hnear := abs_divideRounding_sub_le (scaled num den (exponentOf num den)).1
    (scaled_pos num hden (exponentOf num den))
  rw [scaled_eq, ← significandOf] at hnear
  calc |(carried (significandOf num den) (exponentOf num den)).value - num / den|
      = |(significandOf num den : ℚ) - num / den / 2 ^ exponentOf num den| *
          2 ^ exponentOf num den := by
        rw [value_carried, ← abs_of_pos hpos, ← abs_mul, abs_of_pos hpos, sub_mul,
          div_mul_cancel₀ _ hpos.ne']
    _ ≤ 1 / 2 * 2 ^ exponentOf num den := by gcongr
    _ = 2 ^ exponentOf num den / 2 := by ring

end Magnitude
end NotebookTidy.Decimal
