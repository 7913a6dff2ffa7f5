import NotebookTidy.Proofs.Decimal.Rounding

/-! The double that a number is rounded to.

What comes of a quotient, of a decimal, of the product or the quotient of two doubles is told by
the number that it is (`RoundsTo`), and by nothing else (`RoundsTo.eq`). A number that is a
double is rounded to that (`RoundsTo.exact`), and rounding crosses no double
(`RoundsTo.value_le`, `RoundsTo.le_value`). Around each double other than zero there is room that
is rounded to it (`RoundsTo.eq_of_close`), and a number is refused only beyond the largest double
(`RoundsTo.isSome`). -/
namespace NotebookTidy.Decimal
namespace Magnitude

variable {num den : Nat} {m : Magnitude}

theorem value_nonneg (m : Magnitude) : 0 ≤ m.value := by
  rw [value]
  positivity

theorem pos_of_div_pos (h : 0 < (num : ℚ) / den) : 0 < num := by
  refine Nat.pos_of_ne_zero fun hnum => ?_
  rw [hnum, Nat.cast_zero, zero_div] at h
  exact lt_irrefl _ h

theorem two_zpow_add (n : Nat) (e : Int) : (2 : ℚ) ^ ((n : Int) + e) = 2 ^ n * 2 ^ e := by
  rw [zpow_add₀ (by norm_num), zpow_natCast]

/-! ### The exponent of a quotient -/

theorem exponentOf_eq_of_bounds (hnum : 0 < num) (hden : 0 < den) {e : Int}
    (hlow : minExponent ≤ e) (hle : minExponent < e → (2 : ℚ) ^ (52 + e) ≤ num / den)
    (hlt : (num : ℚ) / den < 2 ^ (53 + e)) : exponentOf num den = e := by
  have hmin := minExponent_le num den
  refine le_antisymm ?_ ?_
  · rcases hmin.eq_or_lt with heq | hmore
    · exact heq ▸ hlow
    · have h := (exponentOf_le hnum hden hmore).trans_lt hlt
      rw [show 53 + e = 52 + e + 1 by ring] at h
      have := le_of_two_zpow_lt h
      omega
  · rcases hlow.eq_or_lt with heq | hmore
    · exact heq ▸ hmin
    · have h := (hle hmore).trans_lt (lt_exponentOf num hden)
      rw [show 53 + exponentOf num den = 52 + exponentOf num den + 1 by ring] at h
      have := le_of_two_zpow_lt h
      omega

/-- A quotient that is not above a double has no larger exponent. -/
theorem exponentOf_le_of_le (hnum : 0 < num) (hden : 0 < den) {s : Nat} {e : Int}
    (hs : s < 2 ^ 53) (he : minExponent ≤ e) (h : (num : ℚ) / den ≤ s * 2 ^ e) :
    exponentOf num den ≤ e := by
  rcases (minExponent_le num den).eq_or_lt with heq | hmore
  · exact heq ▸ he
  · have hlt : (2 : ℚ) ^ (52 + exponentOf num den) < 2 ^ (52 + e + 1) :=
      calc (2 : ℚ) ^ (52 + exponentOf num den) ≤ num / den := exponentOf_le hnum hden hmore
        _ ≤ s * 2 ^ e := h
        _ < 2 ^ 53 * 2 ^ e := by
          gcongr
          exact_mod_cast hs
        _ = 2 ^ (52 + e + 1) := by
          rw [← two_zpow_add]
          congr 1
          push_cast
          ring
    have := le_of_two_zpow_lt hlt
    omega

/-- A quotient not below one is not rounded at the least exponent. -/
theorem minExponent_lt (hden : 0 < den) (h : 1 ≤ (num : ℚ) / den) :
    minExponent < exponentOf num den := by
  have hmin : minExponent = -1074 := rfl
  have hlt := h.trans_lt (lt_exponentOf num hden)
  rw [← zpow_zero (2 : ℚ)] at hlt
  have := (zpow_lt_zpow_iff_right₀ (by norm_num)).mp hlt
  omega

/-! ### What a quotient is rounded to -/

theorem significandOf_eq_of_close (hden : 0 < den) {s : Nat}
    (h : |(num : ℚ) / den - s * 2 ^ exponentOf num den| < 2 ^ exponentOf num den / 2) :
    significandOf num den = s := by
  have hpos : (0 : ℚ) < 2 ^ exponentOf num den := by positivity
  refine divideRounding_eq_of_close (scaled_pos num hden _) ?_
  have hscale : (num : ℚ) / den / 2 ^ exponentOf num den - s =
      (num / den - s * 2 ^ exponentOf num den) / 2 ^ exponentOf num den := by
    rw [sub_div, mul_div_cancel_right₀ _ hpos.ne']
  rw [scaled_eq, hscale, abs_div, abs_of_pos hpos, div_lt_iff₀ hpos]
  linarith

theorem nearest_congr {num' den' : Nat} (hnum : 0 < num) (hden : 0 < den) (hden' : 0 < den')
    (h : (num : ℚ) / den = num' / den') : nearest num den = nearest num' den' := by
  have hpos : (0 : ℚ) < num / den := by
    have hnum : (0 : ℚ) < num := by exact_mod_cast hnum
    positivity
  have hnum' : 0 < num' := pos_of_div_pos (h ▸ hpos)
  have he : exponentOf num den = exponentOf num' den' :=
    exponentOf_eq_of_bounds hnum hden (minExponent_le _ _)
      (fun hmore => h ▸ exponentOf_le hnum' hden' hmore) (h ▸ lt_exponentOf num' hden')
  have hs : significandOf num den = significandOf num' den' := by
    refine divideRounding_congr (scaled_pos num hden _) (scaled_pos num' hden' _) ?_
    rw [scaled_eq, scaled_eq, he, h]
  rw [nearest_eq, nearest_eq, he, hs]

theorem rounded_of_lt {s : Nat} {e : Int} (hs : s < 2 ^ 53) (he : e ≤ maxExponent) :
    rounded s e = some ⟨s, e⟩ := by
  have htwo : twoTo precision = 2 ^ 53 := by decide
  have hcarried : carried s e = ⟨s, e⟩ := if_neg (by omega)
  rw [rounded, hcarried, if_pos he]

theorem rounded_two_pow {e : Int} (he : e + 1 ≤ maxExponent) :
    rounded (2 ^ 53) e = some ⟨2 ^ 52, e + 1⟩ := by
  have hcarried : carried (2 ^ 53) e = ⟨2 ^ 52, e + 1⟩ := if_pos (by decide)
  rw [rounded, hcarried, if_pos he]

/-- The largest double. -/
def largest : Nat := (2 ^ 53 - 1) * 2 ^ 971

/-- Half a unit beyond the largest double. -/
def limit : Nat := largest + 2 ^ 970

theorem largest_eq : (largest : ℚ) = (2 ^ 53 - 1) * 2 ^ maxExponent := by
  have hmax : maxExponent = ((971 : Nat) : Int) := rfl
  have hsig : ((2 ^ 53 - 1 : Nat) : ℚ) = 2 ^ 53 - 1 := by norm_num
  rw [largest, hmax, zpow_natCast, Nat.cast_mul, Nat.cast_pow, hsig, Nat.cast_ofNat]

theorem limit_eq : (limit : ℚ) = (2 ^ 53 - 1 / 2) * 2 ^ maxExponent := by
  have hmax : maxExponent = ((970 : Nat) : Int) + 1 := rfl
  rw [limit, Nat.cast_add, largest_eq, hmax, zpow_add₀ (by norm_num), zpow_natCast, Nat.cast_pow,
    Nat.cast_ofNat, zpow_one]
  generalize (2 : ℚ) ^ 970 = unit
  ring

theorem Finite.value_le (h : m.Finite) : m.value ≤ largest := by
  have hsig : (m.significand : ℚ) + 1 ≤ 2 ^ 53 := by exact_mod_cast h.significand
  rw [largest_eq]
  exact mul_le_mul (by linarith) (two_zpow_le h.high) (by positivity) (by norm_num)

theorem Finite.value_lt_limit (h : m.Finite) : m.value < limit := by
  have hlt : largest < limit := by decide +kernel
  exact h.value_le.trans_lt (by exact_mod_cast hlt)

/-! ### Numbers, however they are written -/

/-- What a number is rounded to. -/
def RoundsTo (q : ℚ) (r : Option Magnitude) : Prop :=
  ∃ num den : Nat, 0 < den ∧ (num : ℚ) / den = q ∧ nearest num den = r

variable {q : ℚ} {r r' : Option Magnitude}

theorem roundsTo_nearest_one (n : Nat) : RoundsTo n (nearest n 1) :=
  ⟨n, 1, Nat.one_pos, by rw [Nat.cast_one, div_one], rfl⟩

theorem roundsTo_nearestScaled (num : Nat) (hden : 0 < den) (e : Int) :
    RoundsTo (num / den * 2 ^ e) (nearestScaled num den e) := by
  rw [nearestScaled]
  split
  · next he =>
    obtain ⟨k, rfl⟩ := Int.eq_ofNat_of_zero_le he
    refine ⟨_, _, hden, ?_, rfl⟩
    simp [twoTo_eq, mul_div_right_comm]
  · next he =>
    obtain ⟨k, hk⟩ := Int.eq_ofNat_of_zero_le (show 0 ≤ -e by omega)
    obtain rfl : e = -(k : Int) := by omega
    refine ⟨_, _, Nat.mul_pos hden (Nat.pow_pos (by decide)), ?_, rfl⟩
    simp only [neg_neg, Int.toNat_natCast, Nat.cast_mul, Nat.cast_pow, Nat.cast_ofNat, zpow_neg,
      zpow_natCast, ← div_eq_mul_inv, div_div]

theorem roundsTo_nearestDecimal (n : Nat) (e : Int) :
    RoundsTo (n * 10 ^ e) (nearestDecimal n e) := by
  rw [nearestDecimal]
  split
  · next he =>
    obtain ⟨k, rfl⟩ := Int.eq_ofNat_of_zero_le he
    refine ⟨_, _, Nat.one_pos, ?_, rfl⟩
    simp [tenTo]
  · next he =>
    obtain ⟨k, hk⟩ := Int.eq_ofNat_of_zero_le (show 0 ≤ -e by omega)
    obtain rfl : e = -(k : Int) := by omega
    refine ⟨_, _, Nat.pow_pos (by decide), ?_, rfl⟩
    simp [div_eq_mul_inv]

theorem roundsTo_mul (x y : Magnitude) : RoundsTo (x.value * y.value) (x.mul y) := by
  have h := roundsTo_nearestScaled (x.significand * y.significand) Nat.one_pos
    (x.exponent + y.exponent)
  have hvalue : x.value * y.value =
      (x.significand * y.significand : Nat) / (1 : Nat) * 2 ^ (x.exponent + y.exponent) := by
    rw [value, value, zpow_add₀ (by norm_num)]
    push_cast
    ring
  rw [hvalue]
  exact h

theorem roundsTo_div (x : Magnitude) {y : Magnitude} (hy : 0 < y.value) :
    RoundsTo (x.value / y.value) (x.div y) := by
  have hpos : 0 < y.significand := by
    refine Nat.pos_of_ne_zero fun hzero => hy.ne ?_
    rw [value, hzero, Nat.cast_zero, zero_mul]
  have h := roundsTo_nearestScaled x.significand hpos (x.exponent - y.exponent)
  have hvalue : x.value / y.value =
      (x.significand : ℚ) / y.significand * 2 ^ (x.exponent - y.exponent) := by
    rw [value, value, zpow_sub₀ (by norm_num), mul_div_mul_comm]
  rw [hvalue]
  exact h

namespace RoundsTo

theorem eq (hq : 0 < q) (h : RoundsTo q r) (h' : RoundsTo q r') : r = r' := by
  obtain ⟨num, den, hden, rfl, rfl⟩ := h
  obtain ⟨num', den', hden', heq, rfl⟩ := h'
  exact nearest_congr (pos_of_div_pos hq) hden hden' heq.symm

theorem finite (h : RoundsTo q (some m)) : m.Finite := by
  obtain ⟨num, den, hden, _, h⟩ := h
  exact finite_nearest hden h

theorem exponentOf_zero_le (den : Nat) : exponentOf 0 den ≤ maxExponent := by
  have hlog : Nat.log2 0 = 0 := by decide
  have hguess : guessOf 0 den ≤ 0 := by
    rw [guessOf, hlog]
    omega
  have hmin : minExponent ≤ 0 := by decide
  have hmax : 0 ≤ maxExponent := by decide
  rw [exponentOf_eq]
  split <;> omega

/-- A number is refused from the limit on only. -/
theorem isSome (h : RoundsTo q r) (hq : q < limit) : ∃ m, r = some m := by
  rw [limit_eq] at hq
  obtain ⟨num, den, hden, rfl, rfl⟩ := h
  have hpos : (0 : ℚ) < 2 ^ maxExponent := by positivity
  have hle : exponentOf num den ≤ maxExponent := by
    rcases Nat.eq_zero_or_pos num with rfl | hnum
    · exact exponentOf_zero_le den
    rcases (minExponent_le num den).eq_or_lt with heq | hmore
    · exact heq ▸ by decide
    · have hlt : (2 : ℚ) ^ (52 + exponentOf num den) < 2 ^ (52 + maxExponent + 1) :=
        calc (2 : ℚ) ^ (52 + exponentOf num den) ≤ num / den := exponentOf_le hnum hden hmore
          _ < (2 ^ 53 - 1 / 2) * 2 ^ maxExponent := hq
          _ < 2 ^ 53 * 2 ^ maxExponent := by
            gcongr
            norm_num
          _ = 2 ^ (52 + maxExponent + 1) := by
            rw [← two_zpow_add]
            congr 1
      have := le_of_two_zpow_lt hlt
      omega
  have hcases : significandOf num den < 2 ^ 53 ∨
      significandOf num den = 2 ^ 53 ∧ exponentOf num den + 1 ≤ maxExponent := by
    refine (significandOf_le num hden).lt_or_eq.imp_right fun hs => ⟨hs, ?_⟩
    by_contra hlast
    have he : exponentOf num den = maxExponent := by omega
    have hsmall : significandOf num den ≤ 2 ^ 53 - 1 := by
      refine divideRounding_le_of_lt (scaled_pos num hden _) ?_
      rw [scaled_eq, he, div_lt_iff₀ hpos]
      norm_num at hq ⊢
      exact hq
    omega
  rw [nearest_eq]
  rcases hcases with hs | ⟨hs, he⟩
  · exact ⟨_, rounded_of_lt hs hle⟩
  · exact ⟨_, hs ▸ rounded_two_pow he⟩

/-- What is rounded to a double is not beyond the limit. -/
theorem le_limit (h : RoundsTo q (some m)) : q ≤ limit := by
  have hle := h.finite.value_le
  obtain ⟨num, den, hden, rfl, hm⟩ := h
  obtain ⟨rfl, hhigh⟩ := nearest_eq_some hm
  have hnear := (abs_le.mp (abs_value_sub_le hden hm)).1
  have hunit := two_zpow_le ((le_exponent_carried _ _).trans hhigh)
  rw [largest_eq] at hle
  rw [limit_eq]
  linarith

/-! ### Doubles and the numbers around them -/

/-- A number on the grid of an exponent is on that of each smaller one. -/
theorem mul_two_zpow_eq (s : Nat) {e e' : Int} (h : e' ≤ e) :
    (s * 2 ^ e : ℚ) = ((s * 2 ^ (e - e').toNat : Nat) : ℚ) * 2 ^ e' := by
  have hsum : e = ((e - e').toNat : Int) + e' := by omega
  rw [hsum, two_zpow_add, ← hsum]
  push_cast
  ring

/-- A double is rounded to itself. -/
theorem exact (h : RoundsTo q r) (hq : 0 < q) {s : Nat} {e : Int} (hs : s < 2 ^ 53)
    (he : minExponent ≤ e) (hhigh : e ≤ maxExponent) (heq : q = s * 2 ^ e) :
    ∃ m, r = some m ∧ m.value = q := by
  obtain ⟨num, den, hden, rfl, rfl⟩ := h
  have hle := exponentOf_le_of_le (pos_of_div_pos hq) hden hs he heq.le
  have hgrid := heq.trans (mul_two_zpow_eq s hle)
  have hpos : (0 : ℚ) < 2 ^ exponentOf num den := by positivity
  have hsig : significandOf num den = s * 2 ^ (e - exponentOf num den).toNat := by
    refine significandOf_eq_of_close hden ?_
    rw [hgrid, sub_self, abs_zero]
    positivity
  have hlt : significandOf num den < 2 ^ 53 := by
    have hlt := lt_exponentOf num hden
    rw [hgrid, ← hsig, show (53 : Int) = ((53 : Nat) : Int) from rfl, two_zpow_add,
      mul_lt_mul_iff_left₀ hpos] at hlt
    exact_mod_cast hlt
  refine ⟨⟨significandOf num den, exponentOf num den⟩, ?_, ?_⟩
  · rw [nearest_eq, rounded_of_lt hlt (hle.trans hhigh)]
  · rw [value, hgrid, hsig]

/-- Rounding does not go above a double. -/
theorem value_le (h : RoundsTo q (some m)) {s : Nat} {e : Int} (hs : s < 2 ^ 53)
    (he : minExponent ≤ e) (hq : q ≤ s * 2 ^ e) : m.value ≤ s * 2 ^ e := by
  obtain ⟨num, den, hden, rfl, hm⟩ := h
  obtain ⟨rfl, _⟩ := nearest_eq_some hm
  have hpos : (0 : ℚ) < 2 ^ exponentOf num den := by positivity
  rw [value_carried]
  rcases Nat.eq_zero_or_pos num with rfl | hnum
  · rw [significandOf_zero hden, Nat.cast_zero, zero_mul]
    positivity
  · have hle := exponentOf_le_of_le hnum hden hs he hq
    rw [mul_two_zpow_eq s hle] at hq ⊢
    rw [mul_le_mul_iff_left₀ hpos]
    refine Nat.cast_le.mpr (divideRounding_le_of_lt (scaled_pos num hden _) ?_)
    rw [scaled_eq]
    rw [← div_le_iff₀ hpos] at hq
    linarith

/-- Rounding does not go below a double. -/
theorem le_value (h : RoundsTo q (some m)) (hpos : 0 < q) {s : Nat} {e : Int} (hs : s < 2 ^ 53)
    (he : minExponent ≤ e) (hq : s * 2 ^ e ≤ q) : s * 2 ^ e ≤ m.value := by
  obtain ⟨num, den, hden, rfl, hm⟩ := h
  obtain ⟨rfl, _⟩ := nearest_eq_some hm
  have hunit : (0 : ℚ) < 2 ^ exponentOf num den := by positivity
  rw [value_carried]
  rcases le_or_gt (exponentOf num den) e with hle | hlt
  · rw [mul_two_zpow_eq s hle] at hq ⊢
    rw [mul_le_mul_iff_left₀ hunit]
    refine Nat.cast_le.mpr (le_divideRounding_of_lt (scaled_pos num hden _) ?_)
    rw [scaled_eq]
    rw [← le_div_iff₀ hunit] at hq
    linarith
  · have hbig := le_significandOf (pos_of_div_pos hpos) hden (by omega)
    calc (s * 2 ^ e : ℚ) ≤ 2 ^ 53 * 2 ^ e := by
          gcongr
          exact_mod_cast hs.le
      _ = 2 ^ 52 * 2 ^ (e + 1) := by
          rw [zpow_add₀ (by norm_num)]
          ring
      _ ≤ significandOf num den * 2 ^ exponentOf num den := by
          gcongr
          · exact_mod_cast hbig
          · norm_num
          · omega

theorem significand_eq_zero (h : RoundsTo 0 (some m)) : m.significand = 0 := by
  have hle := h.value_le (s := 0) (e := 0) (by norm_num) (by decide) (by norm_num)
  have hpos : (0 : ℚ) < 2 ^ m.exponent := by positivity
  rw [Nat.cast_zero, zero_mul, value] at hle
  exact_mod_cast le_antisymm (nonpos_of_mul_nonpos_left hle hpos) (Nat.cast_nonneg _)

theorem one_le_value (h : RoundsTo q (some m)) (hq : 1 ≤ q) : 1 ≤ m.value := by
  have hle := h.le_value (zero_lt_one.trans_le hq) (s := 1) (e := 0) (by norm_num) (by decide)
  rw [Nat.cast_one, one_mul, zpow_zero] at hle
  exact hle hq

/-- Where a significand has all of its bits, rounding makes a number larger by so little. -/
theorem value_le_mul (h : RoundsTo q (some m)) (hq : 1 ≤ q) :
    m.value ≤ q * (1 + 1 / 2 ^ 53) := by
  obtain ⟨num, den, hden, rfl, hm⟩ := h
  have hnear := (abs_le.mp (abs_value_sub_le hden hm)).2
  have hle :=
    exponentOf_le (pos_of_div_pos (zero_lt_one.trans_le hq)) hden (minExponent_lt hden hq)
  rw [show (52 : Int) = ((52 : Nat) : Int) from rfl, two_zpow_add] at hle
  have hhalf : (2 : ℚ) ^ exponentOf num den / 2 ≤ num / den * (1 / 2 ^ 53) := by linarith
  rw [mul_one_add]
  linarith

/-- What is closer to a double than half a unit of its last place is rounded to it. Below a power
of two the units are half as large. -/
theorem eq_of_close (h : RoundsTo q r) (hm : m.Finite) (hs : m.significand ≠ 0)
    (hclose : |q - m.value| < 2 ^ m.exponent / 2)
    (hlow : m.significand = 2 ^ 52 → |q - m.value| < 2 ^ m.exponent / 4) : r = some m := by
  obtain ⟨num, den, hden, rfl, rfl⟩ := h
  obtain ⟨s, e⟩ := m
  obtain ⟨hsmall, hemin, hemax, hnormal⟩ := hm
  dsimp only [value] at *
  have hpos : (0 : ℚ) < 2 ^ e := by positivity
  have h53 : (2 : ℚ) ^ (53 + e) = 2 ^ 53 * 2 ^ e := two_zpow_add 53 e
  have h52 : (2 : ℚ) ^ (52 + e) = 2 ^ 52 * 2 ^ e := two_zpow_add 52 e
  obtain ⟨hbelow, habove⟩ := abs_lt.mp hclose
  have hone : (2 : ℚ) ^ e ≤ s * 2 ^ e :=
    le_mul_of_one_le_left hpos.le (by exact_mod_cast Nat.one_le_iff_ne_zero.mpr hs)
  have hnum : 0 < num := pos_of_div_pos (show (0 : ℚ) < num / den by linarith)
  by_cases hfull : minExponent < e → (2 : ℚ) ^ (52 + e) ≤ num / den
  · have hlast : (s + 1 : ℚ) * 2 ^ e ≤ 2 ^ 53 * 2 ^ e :=
      mul_le_mul_of_nonneg_right (by exact_mod_cast hsmall) hpos.le
    have he : exponentOf num den = e :=
      exponentOf_eq_of_bounds hnum hden hemin hfull (by linarith)
    rw [nearest_eq, significandOf_eq_of_close hden (he ▸ hclose), he, rounded_of_lt hsmall hemax]
  · -- below the power of two the quotient is rounded up to it, on a grid that is finer
    obtain ⟨hmore, hless⟩ := Classical.not_imp.mp hfull
    have htwo : s = 2 ^ 52 := by
      refine le_antisymm (Nat.lt_succ_iff.mp ?_) (hnormal hs hmore)
      have hlt : (s : ℚ) * 2 ^ e < (2 ^ 52 + 1) * 2 ^ e := by linarith
      exact_mod_cast (mul_lt_mul_iff_left₀ hpos).mp hlt
    subst htwo
    obtain ⟨hcloser, _⟩ := abs_lt.mp (hlow rfl)
    have hhalf : (2 : ℚ) ^ e = 2 * 2 ^ (e - 1) := by
      rw [← zpow_one_add₀ (by norm_num), add_sub_cancel]
    have h51 : (2 : ℚ) ^ (52 + (e - 1)) = 2 ^ 52 * 2 ^ (e - 1) := two_zpow_add 52 (e - 1)
    push_cast at hcloser
    have he : exponentOf num den = e - 1 := by
      refine exponentOf_eq_of_bounds hnum hden (by omega) (fun _ => by linarith) ?_
      rwa [show 53 + (e - 1) = 52 + e by ring, ← not_le]
    have hsig : significandOf num den = 2 ^ 53 := by
      refine significandOf_eq_of_close hden ?_
      rw [he, abs_lt]
      push_cast
      constructor <;> linarith
    rw [nearest_eq, hsig, he, rounded_two_pow (by omega), sub_add_cancel]

end RoundsTo
end Magnitude
end NotebookTidy.Decimal
