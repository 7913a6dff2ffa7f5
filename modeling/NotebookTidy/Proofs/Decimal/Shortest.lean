import Mathlib.Data.Nat.Cast.Order.Field
import Mathlib.Data.Nat.Digits.Defs
import NotebookTidy.Decimal.Shortest
import NotebookTidy.Proofs.Decimal.Nearest

/-! The shortest decimal of a double.

The decimal exponent of a quotient is that of the power of ten below it (`decimalExponent_le`,
`lt_decimalExponent`). So a candidate on the grid of so many digits has no more digits than that,
or is the next power of ten, and on the grid of seventeen the nearer candidate reads back
(`withDigits?_seventeen`). Hence the shortest decimal of a finite double other than zero reads back
as the double (`nearestDecimal_shortest`); it has digits that a reader takes whole, and an exponent
that is as short (`shortest_moderate`). -/
namespace NotebookTidy.Decimal
namespace Magnitude

theorem tenTo_eq (n : Nat) : tenTo n = 10 ^ n := rfl

theorem cast_tenTo (n : Nat) : (tenTo n : ℚ) = 10 ^ n := by
  rw [tenTo_eq, Nat.cast_pow, Nat.cast_ofNat]

theorem lt_ten_pow_digitCount (n : Nat) : n < 10 ^ digitCount n := by
  rw [digitCount]
  split
  · next h =>
    rw [h]
    decide
  · exact (Nat.length_toDigits_le_iff (by decide) Nat.length_toDigits_pos).mp le_rfl

theorem ten_pow_digitCount_le {n : Nat} (h : 0 < n) : 10 ^ (digitCount n - 1) ≤ n := by
  rw [digitCount, if_neg (Nat.pos_iff_ne_zero.mp h)]
  have hpos := @Nat.length_toDigits_pos 10 n
  by_contra hlt
  rcases Nat.eq_zero_or_pos ((Nat.toDigits 10 n).length - 1) with hone | hmore
  · rw [hone] at hlt
    omega
  · have := (Nat.length_toDigits_le_iff (b := 10) (by decide) hmore).mpr (not_le.mp hlt)
    omega

theorem digitCount_pos {n : Nat} (h : 0 < n) : 0 < digitCount n := by
  rw [digitCount, if_neg (Nat.pos_iff_ne_zero.mp h)]
  exact Nat.length_toDigits_pos

/-! ### The decimal exponent -/

theorem decimalExponent_cases (num : Nat) {den : Nat} (hden : 0 < den) :
    (decimalExponent num den = (digitCount num : Int) - digitCount den ∧
        10 ^ ((digitCount num : Int) - digitCount den) ≤ (num : ℚ) / den) ∨
      decimalExponent num den = (digitCount num : Int) - digitCount den - 1 ∧
        (num : ℚ) / den < 10 ^ ((digitCount num : Int) - digitCount den) := by
  have hpos : (0 : ℚ) < den := by exact_mod_cast hden
  rw [decimalExponent]
  generalize (digitCount num : Int) - digitCount den = guess
  by_cases hguess : 0 ≤ guess
  · obtain ⟨k, rfl⟩ := Int.eq_ofNat_of_zero_le hguess
    simp only [if_pos hguess, Int.toNat_natCast, tenTo_eq, zpow_natCast, div_lt_iff₀ hpos,
      le_div_iff₀ hpos, mul_comm (10 ^ k : ℚ)]
    by_cases hbelow : num < den * 10 ^ k
    · exact .inr ⟨by simp [hbelow], by exact_mod_cast hbelow⟩
    · exact .inl ⟨by simp [hbelow], by exact_mod_cast not_lt.mp hbelow⟩
  · obtain ⟨k, hk⟩ := Int.eq_ofNat_of_zero_le (show 0 ≤ -guess by omega)
    obtain rfl : guess = -(k : Int) := by omega
    have hten : (0 : ℚ) < 10 ^ k := by positivity
    simp only [if_neg hguess, neg_neg, Int.toNat_natCast, tenTo_eq, zpow_neg, zpow_natCast,
      div_lt_iff₀ hpos, le_div_iff₀ hpos, inv_mul_eq_div, lt_div_iff₀ hten, div_le_iff₀ hten]
    by_cases hbelow : num * 10 ^ k < den
    · exact .inr ⟨by simp [hbelow], by exact_mod_cast hbelow⟩
    · exact .inl ⟨by simp [hbelow], by exact_mod_cast not_lt.mp hbelow⟩

theorem lt_decimalExponent (num : Nat) {den : Nat} (hden : 0 < den) :
    (num : ℚ) / den < 10 ^ (decimalExponent num den + 1) := by
  rcases decimalExponent_cases num hden with ⟨h, _⟩ | ⟨h, hlt⟩
  · have hcount := digitCount_pos hden
    have hnum : (num : ℚ) < 10 ^ digitCount num := by exact_mod_cast lt_ten_pow_digitCount num
    have hlow : (10 : ℚ) ^ (digitCount den - 1) ≤ den := by
      exact_mod_cast ten_pow_digitCount_le hden
    have hpos : (0 : ℚ) < 10 ^ (digitCount den - 1) := by positivity
    rw [h]
    calc (num : ℚ) / den ≤ num / 10 ^ (digitCount den - 1) := by gcongr
      _ < 10 ^ digitCount num / 10 ^ (digitCount den - 1) := by gcongr
      _ = 10 ^ ((digitCount num : Int) - digitCount den + 1) := by
        rw [← zpow_natCast, ← zpow_natCast, ← zpow_sub₀ (by norm_num)]
        congr 1
        omega
  · rwa [h, sub_add_cancel]

theorem decimalExponent_le {num den : Nat} (hnum : 0 < num) (hden : 0 < den) :
    (10 : ℚ) ^ decimalExponent num den ≤ num / den := by
  rcases decimalExponent_cases num hden with ⟨h, hle⟩ | ⟨h, _⟩
  · rwa [h]
  · have hcount := digitCount_pos hnum
    have hlow : (10 : ℚ) ^ (digitCount num - 1) ≤ num := by
      exact_mod_cast ten_pow_digitCount_le hnum
    have hhigh : (den : ℚ) ≤ 10 ^ digitCount den := by
      exact_mod_cast (lt_ten_pow_digitCount den).le
    have hpos : (0 : ℚ) < den := by exact_mod_cast hden
    rw [h]
    calc (10 : ℚ) ^ ((digitCount num : Int) - digitCount den - 1)
        = 10 ^ (digitCount num - 1) / 10 ^ digitCount den := by
          rw [← zpow_natCast, ← zpow_natCast, ← zpow_sub₀ (by norm_num)]
          congr 1
          omega
      _ ≤ num / den := by gcongr

/-! ### Candidates -/

/-- The first candidate is the nearer one. -/
theorem candidates_eq (num : Nat) {den : Nat} (hden : 0 < den) (e : Int) :
    ∃ d d' : Nat, candidates num den e = [d, d'] ∧ |(d : ℚ) - num / den / 10 ^ e| ≤ 1 / 2 ∧
      (d' : ℚ) ≤ num / den / 10 ^ e + 1 := by
  have hgrid : ∀ a b : Nat, 0 < b → ∃ d d' : Nat, (if divideRounding a b = a / b
      then [a / b, a / b + 1] else [a / b + 1, a / b]) = [d, d'] ∧
        |(d : ℚ) - a / b| ≤ 1 / 2 ∧ (d' : ℚ) ≤ a / b + 1 := by
    intro a b hb
    have hnear := abs_divideRounding_sub_le a hb
    have hlow : ((a / b : Nat) : ℚ) ≤ a / b := Nat.cast_div_le
    by_cases hdown : divideRounding a b = a / b
    · refine ⟨_, _, if_pos hdown, hdown ▸ hnear, ?_⟩
      push_cast
      linarith
    · have hup : divideRounding a b = a / b + 1 := by
        rw [divideRounding] at hdown ⊢
        split at hdown
        · next hcond => rw [if_pos hcond]
        · exact absurd rfl hdown
      exact ⟨_, _, if_neg hdown, hup ▸ hnear, by linarith⟩
  rw [candidates]
  by_cases he : 0 ≤ e
  · obtain ⟨k, rfl⟩ := Int.eq_ofNat_of_zero_le he
    obtain ⟨d, d', hd⟩ := hgrid num (den * tenTo k) (Nat.mul_pos hden (Nat.pow_pos (by decide)))
    have hquotient : (num : ℚ) / (den * tenTo k : Nat) = num / den / 10 ^ (k : Int) := by
      rw [tenTo_eq, zpow_natCast, div_div]
      push_cast
      rfl
    rw [hquotient] at hd
    simp only [if_pos he, Int.toNat_natCast]
    exact ⟨d, d', hd⟩
  · obtain ⟨k, hk⟩ := Int.eq_ofNat_of_zero_le (show 0 ≤ -e by omega)
    obtain rfl : e = -(k : Int) := by omega
    obtain ⟨d, d', hd⟩ := hgrid (num * tenTo k) den hden
    have hquotient : ((num * tenTo k : Nat) : ℚ) / den = num / den / 10 ^ (-(k : Int)) := by
      rw [tenTo_eq, zpow_neg, zpow_natCast, div_inv_eq_mul, div_mul_eq_mul_div]
      push_cast
      rfl
    rw [hquotient] at hd
    simp only [if_neg he, neg_neg, Int.toNat_natCast]
    exact ⟨d, d', hd⟩

theorem le_of_mem_candidates {num den : Nat} (hden : 0 < den) {e : Int} {count : Nat}
    (hlt : (num : ℚ) / den < 10 ^ (e + count)) {d : Nat} (hd : d ∈ candidates num den e) :
    d ≤ 10 ^ count := by
  obtain ⟨c, c', hcandidates, hnear, hother⟩ := candidates_eq num hden e
  have hbelow : (num : ℚ) / den / 10 ^ e < 10 ^ count := by
    rwa [div_lt_iff₀ (by positivity), ← zpow_natCast, ← zpow_add₀ (by norm_num), add_comm]
  have hle : (d : ℚ) < 10 ^ count + 1 := by
    rw [hcandidates, List.mem_cons, List.mem_singleton] at hd
    rcases hd with rfl | rfl
    · linarith [(abs_le.mp hnear).2]
    · linarith
  exact Nat.lt_succ_iff.mp (by exact_mod_cast hle)

theorem ratio_pos (x : Magnitude) : 0 < x.ratio.2 := by
  rw [ratio]
  split
  · exact Nat.one_pos
  · exact Nat.pow_pos (by decide)

theorem ratio_eq (x : Magnitude) : (x.ratio.1 : ℚ) / x.ratio.2 = x.value := by
  rw [ratio, value]
  split
  · next he =>
    obtain ⟨k, hk⟩ := Int.eq_ofNat_of_zero_le he
    simp [hk, twoTo_eq]
  · next he =>
    obtain ⟨k, hk⟩ := Int.eq_ofNat_of_zero_le (show 0 ≤ -x.exponent by omega)
    have hneg : x.exponent = -(k : Int) := by omega
    simp [hneg, twoTo_eq, div_eq_mul_inv]

/-- A decimal on the grid of so many digits has them, or is the next power of ten. -/
theorem withDigits?_some {x : Magnitude} {count : Nat} {s : Scientific}
    (h : x.withDigits? count = some s) : s.digits ≤ 10 ^ count ∧
      s.exponent = decimalExponent x.ratio.1 x.ratio.2 - count + 1 ∧
      nearestDecimal s.digits s.exponent = some x := by
  rw [withDigits?] at h
  obtain ⟨d, hd, rfl⟩ := Option.map_eq_some_iff.mp h
  refine ⟨?_, rfl, ?_⟩
  · have hlt := lt_decimalExponent x.ratio.1 x.ratio_pos
    rw [show decimalExponent x.ratio.1 x.ratio.2 + 1 =
      decimalExponent x.ratio.1 x.ratio.2 - count + 1 + count by ring] at hlt
    exact le_of_mem_candidates x.ratio_pos hlt (List.mem_of_find?_eq_some hd)
  · simpa using List.find?_some hd

theorem value_pos {x : Magnitude} (hzero : x.significand ≠ 0) : 0 < x.value := by
  have hpos : (0 : ℚ) < x.significand := by exact_mod_cast Nat.pos_of_ne_zero hzero
  rw [value]
  positivity

/-- Seventeen digits suffice: half a unit of the last of them is within the room of a double. -/
theorem withDigits?_seventeen {x : Magnitude} (hx : x.Finite) (hzero : x.significand ≠ 0) :
    ∃ s, x.withDigits? 17 = some s ∧
      |(s.digits : ℚ) * 10 ^ s.exponent - x.value| ≤ 10 ^ s.exponent / 2 := by
  have hvalue := value_pos hzero
  have hnum : 0 < x.ratio.1 := pos_of_div_pos (x.ratio_eq ▸ hvalue)
  have hle := decimalExponent_le hnum x.ratio_pos
  generalize hexponent : decimalExponent x.ratio.1 x.ratio.2 - (17 : Nat) + 1 = e
  obtain ⟨d, d', hcandidates, hnear, _⟩ := candidates_eq x.ratio.1 x.ratio_pos e
  rw [x.ratio_eq] at hle hnear
  have hpos : (0 : ℚ) < 10 ^ e := by positivity
  have hunit : (2 : ℚ) ^ x.exponent > 0 := by positivity
  have hclose : |(d : ℚ) * 10 ^ e - x.value| ≤ 10 ^ e / 2 := by
    calc |(d : ℚ) * 10 ^ e - x.value| = |(d : ℚ) - x.value / 10 ^ e| * 10 ^ e := by
          rw [← abs_of_pos hpos, ← abs_mul, abs_of_pos hpos, sub_mul, div_mul_cancel₀ _ hpos.ne']
      _ ≤ 1 / 2 * 10 ^ e := by gcongr
      _ = 10 ^ e / 2 := by ring
  have hsmall : (10 : ℚ) ^ e / 2 ≤ x.significand * 2 ^ x.exponent / (2 * 10 ^ 16) := by
    rw [show decimalExponent x.ratio.1 x.ratio.2 = ((16 : Nat) : Int) + e by omega,
      zpow_add₀ (by norm_num), zpow_natCast, value] at hle
    linarith
  have hread : nearestDecimal d e = some x := by
    have hsig : (x.significand : ℚ) < 2 ^ 53 := by exact_mod_cast hx.significand
    refine (roundsTo_nearestDecimal d e).eq_of_close hx hzero (hclose.trans_lt ?_) fun htwo => ?_
    · refine hsmall.trans_lt ?_
      rw [div_lt_div_iff₀ (by norm_num) (by norm_num)]
      nlinarith
    · refine (hclose.trans hsmall).trans_lt ?_
      rw [htwo, div_lt_div_iff₀ (by norm_num) (by norm_num)]
      push_cast
      linarith
  refine ⟨⟨d, e⟩, ?_, hclose⟩
  have hfind : (candidates x.ratio.1 x.ratio.2 e).find? (nearestDecimal · e == some x) =
      some d := by
    rw [hcandidates, List.find?_cons_of_pos (by rw [hread, beq_self_eq_true])]
  rw [← hexponent] at hfind ⊢
  rw [withDigits?]
  exact Option.map_eq_some_iff.mpr ⟨d, hfind, rfl⟩

/-! ### The shortest decimal -/

/-- The shortest decimal is found, with seventeen digits at most. -/
theorem exists_withDigits?_shortest {x : Magnitude} (hx : x.Finite) (hzero : x.significand ≠ 0) :
    ∃ count, 1 ≤ count ∧ count ≤ 17 ∧ x.withDigits? count = some x.shortest := by
  cases h : ((List.range 17).map (· + 1)).findSome? x.withDigits? with
  | none =>
    obtain ⟨s, hs, _⟩ := withDigits?_seventeen hx hzero
    rw [List.findSome?_eq_none_iff] at h
    rw [h 17 (by decide)] at hs
    cases hs
  | some s =>
    obtain ⟨count, hcount, hs⟩ := List.exists_of_findSome?_eq_some h
    obtain ⟨k, hk, rfl⟩ := List.mem_map.mp hcount
    have hk := List.mem_range.mp hk
    refine ⟨k + 1, by omega, by omega, ?_⟩
    rw [shortest, h, Option.getD_some, hs]

/-- **The shortest decimal of a double reads back as the double.** -/
theorem nearestDecimal_shortest {x : Magnitude} (hx : x.Finite) (hzero : x.significand ≠ 0) :
    nearestDecimal x.shortest.digits x.shortest.exponent = some x := by
  obtain ⟨count, _, _, h⟩ := exists_withDigits?_shortest hx hzero
  exact (withDigits?_some h).2.2

/-- Where it takes seventeen digits, the shortest decimal is the nearest there is of so many. -/
theorem shortest_near {x : Magnitude} (hx : x.Finite) (hzero : x.significand ≠ 0)
    (hlong : 10 ^ 16 < x.shortest.digits) :
    |(x.shortest.digits : ℚ) * 10 ^ x.shortest.exponent - x.value| ≤
      10 ^ x.shortest.exponent / 2 := by
  obtain ⟨count, _, hcount, h⟩ := exists_withDigits?_shortest hx hzero
  have hdigits := hlong.trans_le (withDigits?_some h).1
  obtain rfl : count = 17 := by
    have := (Nat.pow_lt_pow_iff_right (by decide)).mp hdigits
    omega
  obtain ⟨s, hs, hnear⟩ := withDigits?_seventeen hx hzero
  rw [h] at hs
  cases hs
  exact hnear

/-- A decimal with at most eighteen digits, one of them not zero, and an exponent that is not
large. -/
structure Moderate (s : Scientific) : Prop where
  nonzero : 0 < s.digits
  digits : s.digits ≤ 10 ^ 17
  exponent : s.exponent.natAbs ≤ 1100

theorem digitCount_le {n k : Nat} (h : n < 2 ^ k) : digitCount n ≤ k := by
  rw [digitCount]
  split
  · exact Nat.zero_le k
  · next hn =>
    have hk : 0 < k := by
      by_contra hzero
      obtain rfl : k = 0 := by omega
      omega
    exact (Nat.length_toDigits_le_iff (by decide) hk).mpr
      (h.trans_le (Nat.pow_le_pow_left (by decide) k))

theorem decimalExponent_natAbs_le {x : Magnitude} (hx : x.Finite) :
    (decimalExponent x.ratio.1 x.ratio.2).natAbs ≤ 1076 := by
  have hsmall := hx.significand
  have hlow : -1074 ≤ x.exponent := hx.low
  have hhigh : x.exponent ≤ 971 := hx.high
  have hcounts : digitCount x.ratio.1 ≤ 1024 ∧ digitCount x.ratio.2 ≤ 1075 := by
    rw [ratio]
    split
    · have hnum : x.significand * twoTo x.exponent.toNat < 2 ^ (53 + x.exponent.toNat) := by
        rw [twoTo_eq, Nat.pow_add]
        exact Nat.mul_lt_mul_of_pos_right hsmall (Nat.pow_pos (by decide))
      exact ⟨(digitCount_le hnum).trans (by omega),
        (digitCount_le (show 1 < 2 ^ 1 by decide)).trans (by decide)⟩
    · have hden : twoTo (-x.exponent).toNat < 2 ^ ((-x.exponent).toNat + 1) :=
        Nat.pow_lt_pow_right (by decide) (Nat.lt_succ_self _)
      exact ⟨(digitCount_le hsmall).trans (by decide), (digitCount_le hden).trans (by omega)⟩
  rcases decimalExponent_cases x.ratio.1 x.ratio_pos with ⟨h, _⟩ | ⟨h, _⟩ <;> omega

/-- The shortest decimal of a double other than zero is short indeed. -/
theorem shortest_moderate {x : Magnitude} (hx : x.Finite) (hzero : x.significand ≠ 0) :
    Moderate x.shortest := by
  obtain ⟨count, hpos, hcount, h⟩ := exists_withDigits?_shortest hx hzero
  obtain ⟨hdigits, hexponent, hnearest⟩ := withDigits?_some h
  have hbound := decimalExponent_natAbs_le hx
  refine ⟨Nat.pos_of_ne_zero fun hnone => hzero ?_, ?_, ?_⟩
  · have hrounds := roundsTo_nearestDecimal x.shortest.digits x.shortest.exponent
    rw [hnearest, hnone, Nat.cast_zero, zero_mul] at hrounds
    exact hrounds.significand_eq_zero
  · exact hdigits.trans (Nat.pow_le_pow_right (by decide) hcount)
  · omega

end Magnitude
end NotebookTidy.Decimal
