import NotebookTidy.Json.NumberScan
import NotebookTidy.Proofs.Decimal.Shortest

/-! Scaling a significand by a power of ten.

The reader rounds the significand, then a power of ten, and then their product or quotient. If the
significand and the power are doubles, all is rounded once (`roundsTo_scaledDouble?`). A
significand is scaled whatever the power, unless the product comes too near to the largest
double (`exists_scaledDouble?`). -/
namespace NotebookTidy.Json
open Decimal Decimal.Magnitude

/-! ### Powers of ten -/

/-- Up to the twenty-second, a power of ten is a double. -/
theorem powerOfTen?_exact {k : Nat} (hk : k ≤ 22) :
    ∃ power, powerOfTen? k = some power ∧ power.value = 10 ^ k := by
  have hfive : 5 ^ k < 2 ^ 53 :=
    (Nat.pow_le_pow_right (by decide) hk).trans_lt (by decide)
  have hmin : minExponent = -1074 := rfl
  have hmax : maxExponent = 971 := rfl
  obtain ⟨power, hpower, hexact⟩ := (roundsTo_nearest_one (tenTo k)).exact
    (by rw [cast_tenTo]; positivity) hfive (e := k) (by omega) (by omega)
    (by rw [cast_tenTo, zpow_natCast, Nat.cast_pow, ← mul_pow]; norm_num)
  exact ⟨power, hpower, hexact.trans (cast_tenTo k)⟩

theorem exists_powerOfTen? {k : Nat} (hk : k ≤ maxPower) : ∃ power, powerOfTen? k = some power ∧
    1 ≤ power.value ∧ power.value ≤ 10 ^ k * (1 + 1 / 2 ^ 53) := by
  have hrounds := roundsTo_nearest_one (tenTo k)
  rw [cast_tenTo] at hrounds
  have hone : (1 : ℚ) ≤ 10 ^ k := one_le_pow₀ (by norm_num)
  have hsmall : (10 : ℚ) ^ k < limit := by
    have hmost : 10 ^ maxPower < limit := by decide +kernel
    exact_mod_cast (Nat.pow_le_pow_right (by decide) hk).trans_lt hmost
  obtain ⟨power, hpower⟩ := hrounds.isSome hsmall
  rw [hpower] at hrounds
  exact ⟨power, hpower, hrounds.one_le_value hone, hrounds.value_le_mul hone⟩

/-! ### Scaling once -/

theorem scaleByPower_of_le (x : Magnitude) (steps : Nat) {e : Int} (he : e.natAbs ≤ maxPower) :
    scaleByPower x steps e = (powerOfTen? e.natAbs).bind fun power =>
      if 0 ≤ e then x.mul power else x.div power := by
  cases steps <;> rw [scaleByPower, if_pos he] <;> rfl

/-- Where the significand and the power of ten are doubles, there is one rounding. -/
theorem roundsTo_scaledDouble? {n : Nat} (hpos : 0 < n) (hn : n < 2 ^ 53) {e : Int}
    (he : e.natAbs ≤ 22) : RoundsTo (n * 10 ^ e) (scaledDouble? n e) := by
  have hpos' : (0 : ℚ) < n := by exact_mod_cast hpos
  obtain ⟨x, hx, hvalue⟩ := (roundsTo_nearest_one n).exact hpos' hn (e := 0) (by decide)
    (by decide) (by rw [zpow_zero, mul_one])
  obtain ⟨power, hpower, hten⟩ := powerOfTen?_exact he
  have hmax : maxPower = 308 := rfl
  have hscaled : scaledDouble? n e = if 0 ≤ e then x.mul power else x.div power := by
    rw [scaledDouble?, hx, Option.bind_eq_bind, Option.bind_some,
      scaleByPower_of_le x 3 (by omega), hpower, Option.bind_some]
  rw [hscaled]
  split
  · next hsign =>
    have hmul := roundsTo_mul x power
    rwa [hvalue, hten, ← zpow_natCast, Int.natAbs_of_nonneg hsign] at hmul
  · next hsign =>
    have hdiv := roundsTo_div x (y := power) (hten ▸ by positivity)
    have hneg : (10 : ℚ) ^ e = (10 ^ e.natAbs)⁻¹ := by
      rw [← zpow_natCast, ← zpow_neg]
      congr 1
      omega
    rwa [hvalue, hten, div_eq_mul_inv, ← hneg] at hdiv

/-! ### Scaling by any power -/

theorem exists_div {x power : Magnitude} (hx : x.Finite) (hpower : 1 ≤ power.value) :
    ∃ y, x.div power = some y := by
  refine (roundsTo_div x (zero_lt_one.trans_le hpower)).isSome ?_
  exact (div_le_self x.value_nonneg hpower).trans_lt hx.value_lt_limit

theorem exists_scaleByPower_of_le {x : Magnitude} (hx : x.Finite) (steps : Nat) {e : Int}
    (he : e.natAbs ≤ maxPower)
    (hroom : 0 ≤ e → x.value * (10 ^ e * (1 + 1 / 2 ^ 53)) < limit) :
    ∃ m, scaleByPower x steps e = some m := by
  obtain ⟨power, hpower, hone, hvalue⟩ := exists_powerOfTen? he
  rw [scaleByPower_of_le x steps he, hpower, Option.bind_some]
  split
  · next hsign =>
    refine (roundsTo_mul x power).isSome (lt_of_le_of_lt ?_ (hroom hsign))
    rw [← zpow_natCast, Int.natAbs_of_nonneg hsign] at hvalue
    exact mul_le_mul_of_nonneg_left hvalue x.value_nonneg
  · exact exists_div hx hone

/-- Dividing never goes beyond the largest double; multiplying does not, where there is room for
what rounding adds to the power. -/
theorem exists_scaleByPower {x : Magnitude} (hx : x.Finite) {steps : Nat} {e : Int}
    (hlow : -((maxPower * (steps + 1) : Nat) : Int) ≤ e) (hhigh : e ≤ maxPower)
    (hroom : 0 ≤ e → x.value * (10 ^ e * (1 + 1 / 2 ^ 53)) < limit) :
    ∃ m, scaleByPower x steps e = some m := by
  induction steps generalizing x e with
  | zero => exact exists_scaleByPower_of_le hx 0 (by omega) hroom
  | succ steps ih =>
    by_cases he : e.natAbs ≤ maxPower
    · exact exists_scaleByPower_of_le hx (steps + 1) he hroom
    · obtain ⟨power, hpower, hone, _⟩ := exists_powerOfTen? le_rfl
      obtain ⟨y, hy⟩ := exists_div hx hone
      rw [scaleByPower, if_neg he]
      split
      · exact ⟨x, rfl⟩
      · rw [if_neg (by omega), hpower, Option.bind_eq_bind, Option.bind_some, hy, Option.bind_some]
        refine ih (RoundsTo.finite (hy ▸ roundsTo_div x (zero_lt_one.trans_le hone))) ?_ (by omega)
          fun hsign => absurd hsign (by omega)
        rw [Nat.mul_succ] at hlow
        push_cast at hlow ⊢
        omega

/-- A decimal of so few digits that is not beyond the limit, other than the one that is next to it,
leaves room for what rounding adds to its power of ten. -/
theorem room_of_le_limit {n k : Nat} (hn : n ≤ 10 ^ 17) (hlimit : n * 10 ^ k ≤ limit)
    (hnext : k = 292 → n ≤ 17976931348623157) {x : Magnitude} (hx : nearest n 1 = some x) :
    x.value * (10 ^ k * (1 + 1 / 2 ^ 53)) < limit := by
  have hrounds := roundsTo_nearest_one n
  rw [hx] at hrounds
  obtain ⟨bound, hbound, hroom⟩ : ∃ bound : Nat, x.value ≤ bound ∧
      bound * 10 ^ k ≤ 17976931348623156 * 10 ^ 292 := by
    rcases lt_trichotomy k 292 with hk | rfl | hk
    · -- a power of five times a power of two
      refine ⟨10 ^ 17, ?_, ?_⟩
      · have hle := hrounds.value_le (s := 5 ^ 17) (e := 17) (by decide) (by decide)
        norm_num at hle ⊢
        exact hle (by exact_mod_cast hn)
      · calc 10 ^ 17 * 10 ^ k ≤ 10 ^ 17 * 10 ^ 291 :=
            Nat.mul_le_mul_left _ (Nat.pow_le_pow_right (by decide) (by omega))
          _ ≤ 17976931348623156 * 10 ^ 292 := by decide +kernel
    · -- an odd significand of 54 bits is rounded to the even one below it
      refine ⟨17976931348623156, ?_, le_rfl⟩
      rcases (hnext rfl).lt_or_eq with hless | rfl
      · have hle := hrounds.value_le (s := 8988465674311578) (e := 1) (by decide) (by decide)
        norm_num at hle ⊢
        exact hle (by exact_mod_cast Nat.lt_succ_iff.mp hless)
      · have hdown : nearest 17976931348623157 1 = some ⟨8988465674311578, 1⟩ := by decide +kernel
        obtain rfl := Option.some.inj (hx.symm.trans hdown)
        norm_num [value]
    · obtain ⟨j, rfl⟩ := Nat.exists_eq_add_of_le' (show 293 ≤ k by omega)
      rw [pow_add, ← mul_assoc] at hlimit
      have hbeyond : limit < 1797693134862316 * 10 ^ 293 := by decide +kernel
      have hfew : n * 10 ^ j < 1797693134862316 :=
        Nat.lt_of_mul_lt_mul_right (hlimit.trans_lt hbeyond)
      refine ⟨n, ?_, ?_⟩
      · have hsmall : n < 2 ^ 53 := by
          have := (Nat.le_mul_of_pos_right n (Nat.pow_pos (by decide))).trans_lt hfew
          omega
        have hle := hrounds.value_le (e := 0) hsmall (by decide)
        rw [zpow_zero, mul_one] at hle
        exact hle le_rfl
      · calc n * 10 ^ (j + 293) = n * 10 ^ j * 10 ^ 293 := by rw [pow_add, mul_assoc]
          _ ≤ 1797693134862315 * 10 ^ 293 := Nat.mul_le_mul_right _ (Nat.lt_succ_iff.mp hfew)
          _ ≤ 17976931348623156 * 10 ^ 292 := by decide +kernel
  have hsum : bound * 10 ^ k * (2 ^ 53 + 1) < limit * 2 ^ 53 :=
    (Nat.mul_le_mul_right _ hroom).trans_lt (by decide +kernel)
  calc x.value * (10 ^ k * (1 + 1 / 2 ^ 53))
      ≤ (bound : ℚ) * (10 ^ k * (1 + 1 / 2 ^ 53)) := by gcongr
    _ = (bound : ℚ) * 10 ^ k * (2 ^ 53 + 1) / 2 ^ 53 := by ring
    _ < (limit : ℚ) := by
      rw [div_lt_iff₀ (by positivity)]
      exact_mod_cast hsum

/-- What is scaled if the decimal is one of a double: when it is not to be made smaller, it has
seventeen digits at most, and room is left below the limit. -/
structure Scalable (n : Nat) (e : Int) : Prop where
  pos : 0 < n
  fits : n ≤ maxSignificand
  low : -1200 ≤ e
  few : 0 ≤ e → n ≤ 10 ^ 17
  limit : 0 ≤ e → (n : ℚ) * 10 ^ e ≤ Magnitude.limit
  next : e = 292 → n ≤ 17976931348623157

theorem exists_scaledDouble? {n : Nat} {e : Int} (h : Scalable n e) :
    ∃ m, scaledDouble? n e = some m := by
  have hmax : maxPower = 308 := rfl
  obtain ⟨x, hx⟩ := (roundsTo_nearest_one n).isSome (by
    have hfits : maxSignificand < limit := by decide +kernel
    exact_mod_cast h.fits.trans_lt hfits)
  have hlimit : ∀ k : Nat, (k : Int) = e → n * 10 ^ k ≤ limit := by
    rintro k rfl
    have := h.limit (Int.natCast_nonneg k)
    rw [zpow_natCast] at this
    exact_mod_cast this
  rw [scaledDouble?, hx, Option.bind_eq_bind, Option.bind_some]
  refine exists_scaleByPower (finite_nearest Nat.one_pos hx) ?_ ?_ fun hsign => ?_
  · have := h.low
    omega
  · by_contra hlarge
    obtain ⟨k, rfl⟩ := Int.eq_ofNat_of_zero_le (show 0 ≤ e by omega)
    have hbeyond : limit < 10 ^ (maxPower + 1) := by decide +kernel
    refine absurd (hbeyond.trans_le ?_) (not_lt.mpr (hlimit k rfl))
    calc 10 ^ (maxPower + 1) ≤ 10 ^ k := Nat.pow_le_pow_right (by decide) (by omega)
      _ ≤ n * 10 ^ k := Nat.le_mul_of_pos_left _ h.pos
  · obtain ⟨k, rfl⟩ := Int.eq_ofNat_of_zero_le hsign
    rw [zpow_natCast]
    exact room_of_le_limit (h.few hsign) (hlimit k rfl) (fun hk => h.next (by omega)) hx

end NotebookTidy.Json
