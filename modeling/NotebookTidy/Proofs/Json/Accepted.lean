import NotebookTidy.Proofs.Json.Fixed
import NotebookTidy.Proofs.Json.Scaling

/-! Notebooks that are written, read and written again.

The numeral of a double is its shortest decimal with the point moved, so it is rounded to the
double (`roundsTo_numeralOf`), though a reader rounds more than once on the way. That way never
leads beyond the largest double (`scalable_numeralOf`). So whatever was read, what is written of it
is accepted, and comes to the same text once more just when each of its doubles is steady
(`written_again_iff`). A double is rounded once, and is steady, if its text has a significand and a
power of ten that are doubles (`Brief.steady`); one with more digits may not be
(`written_again_changes`). -/
namespace NotebookTidy.Json
open Decimal

/-! ### What a numeral is worth -/

def Numeral.value (n : Numeral) : ℚ := n.significand * 10 ^ n.scale

theorem ofDigitChars_replicate_zero (k n : Nat) :
    Nat.ofDigitChars 10 (List.replicate k '0') n = n * 10 ^ k := by
  induction k generalizing n with
  | zero => rw [List.replicate_zero, Nat.ofDigitChars_nil, Nat.pow_zero, Nat.mul_one]
  | succ k ih =>
    have hzero : '0'.toNat - '0'.toNat = 0 := rfl
    rw [List.replicate_succ, Nat.ofDigitChars_cons, hzero, Nat.add_zero, ih, Nat.pow_succ]
    ring

theorem mul_ten_zpow (n k : Nat) (e : Int) :
    ((n * 10 ^ k : Nat) : ℚ) * 10 ^ e = n * 10 ^ (k + e) := by
  rw [zpow_add₀ (by norm_num), zpow_natCast]
  push_cast
  ring

/-- Where the point stands among the digits makes no difference. -/
theorem value_positionalNumeral (ds : List Char) (x : Int) :
    (positionalNumeral ds x).value = Nat.ofDigitChars 10 ds 0 * 10 ^ (x + 1 - ds.length) := by
  by_cases hneg : x < 0
  · have hvalue := ofDigitChars_zeros ((-x - 1).toNat + 1) ds
    rw [List.replicate_succ, List.cons_append] at hvalue
    simp only [positionalNumeral, if_pos hneg, Numeral.value, Numeral.significand, Numeral.scale,
      List.singleton_append, hvalue, List.length_append, List.length_replicate]
    congr 2
    omega
  · by_cases hshort : ds.length ≤ x.toNat + 1
    · have hone : ['0'] = List.replicate 1 '0' := rfl
      rw [positionalNumeral_of_le (by omega) hshort, Numeral.value, Numeral.significand,
        List.append_assoc, hone, List.replicate_append_replicate, Nat.ofDigitChars_append,
        ofDigitChars_replicate_zero, mul_ten_zpow]
      simp only [Numeral.scale, List.length_replicate]
      congr 2
      omega
    · rw [positionalNumeral_of_lt (by omega) (by omega)]
      simp only [Numeral.value, Numeral.significand, Numeral.scale, List.take_append_drop,
        List.length_drop]
      congr 2
      omega

theorem significand_scientificNumeral (ds : List Char) (x : Int) :
    (scientificNumeral ds x).significand = Nat.ofDigitChars 10 ds 0 := by
  rw [scientificNumeral, Numeral.significand, List.take_append_drop]

theorem scale_scientificNumeral {ds : List Char} (hds : ds ≠ []) (x : Int) :
    (scientificNumeral ds x).scale = x + 1 - ds.length := by
  have hpos := List.length_pos_iff.mpr hds
  simp only [scientificNumeral, Numeral.scale, List.length_drop]
  omega

/-- The point stands before digits that are not many. -/
theorem scale_positionalNumeral {ds : List Char} {x : Int} (hne : ds ≠ []) (hds : ds.length ≤ 18)
    (hx : leastPositional ≤ x) :
    -22 ≤ (positionalNumeral ds x).scale ∧ (positionalNumeral ds x).scale < 0 := by
  have hleast : leastPositional = -5 := rfl
  have hpos := List.length_pos_iff.mpr hne
  by_cases hneg : x < 0
  · simp only [positionalNumeral, if_pos hneg, Numeral.scale, List.length_append,
      List.length_replicate]
    omega
  · by_cases hshort : ds.length ≤ x.toNat + 1
    · rw [positionalNumeral_of_le (by omega) hshort]
      simp only [Numeral.scale, List.length_singleton]
      omega
    · rw [positionalNumeral_of_lt (by omega) (by omega)]
      simp only [Numeral.scale, List.length_drop]
      omega

/-! ### The numeral of a double -/

/-- The digits of the shortest decimal are those of the numeral, up to zeros after them; what
stands for them is in the power of ten, if the point is after the first digit, or else the point
is before digits that are not many. -/
structure Shifted (s : Scientific) (n : Numeral) : Prop where
  value : n.value = s.digits * 10 ^ s.exponent
  scale : -22 ≤ n.scale ∧ n.scale < 0 ∨
    ∃ k : Nat, s.digits = n.significand * 10 ^ k ∧ n.scale = s.exponent + k

theorem shifted_numeralOf {m : Magnitude} (hm : m.Finite) (hzero : m.significand ≠ 0) :
    Shifted m.shortest (numeralOf m) := by
  have hmoderate := Magnitude.shortest_moderate hm hzero
  have hds := (significant_of_moderate hmoderate).ne_nil
  have hlength := length_digitsOf_le hmoderate.digits
  obtain ⟨k, hk⟩ := significantDigits_append m.shortest
  have hdigits : m.shortest.digits =
      Nat.ofDigitChars 10 (significantDigits m.shortest) 0 * 10 ^ k := by
    rw [← ofDigitChars_replicate_zero, ← Nat.ofDigitChars_append, ← hk]
    exact Nat.ofDigitChars_ten_toDigits.symm
  have hplaces : (digitsOf m.shortest.digits).length =
      (significantDigits m.shortest).length + k := by
    rw [hk, List.length_append, List.length_replicate]
  have hexponent : m.shortest.exponent + (digitsOf m.shortest.digits).length - 1 + 1 -
      (significantDigits m.shortest).length = m.shortest.exponent + k := by
    omega
  have hvalue : (Nat.ofDigitChars 10 (significantDigits m.shortest) 0 : ℚ) *
      10 ^ (m.shortest.exponent + k) = m.shortest.digits * 10 ^ m.shortest.exponent := by
    conv_rhs => rw [hdigits, mul_ten_zpow, add_comm]
  rw [numeralOf, if_neg (by simpa [Magnitude.isZero] using hzero)]
  dsimp only
  split
  · next hplace =>
    exact ⟨by rw [value_positionalNumeral, hexponent, hvalue],
      .inl (scale_positionalNumeral hds (by omega) hplace.1)⟩
  · have hscale := scale_scientificNumeral hds
      (m.shortest.exponent + (digitsOf m.shortest.digits).length - 1)
    rw [hexponent] at hscale
    exact ⟨by rw [Numeral.value, significand_scientificNumeral, hscale, hvalue],
      .inr ⟨k, by rw [significand_scientificNumeral, ← hdigits], hscale⟩⟩

/-- **Rounded once, the numeral of a double is the double.** -/
theorem roundsTo_numeralOf {m : Magnitude} (hm : m.Finite) (hzero : m.significand ≠ 0) :
    Magnitude.RoundsTo (numeralOf m).value (some m) := by
  have hrounds := Magnitude.roundsTo_nearestDecimal m.shortest.digits m.shortest.exponent
  rwa [Magnitude.nearestDecimal_shortest hm hzero, ← (shifted_numeralOf hm hzero).value] at hrounds

/-! ### The double that is read of it -/

/-- Next to the limit the shortest decimal has seventeen digits, and is within half a unit of the
last of them. -/
theorem digits_le_of_next {m : Magnitude} (hm : m.Finite) (hzero : m.significand ≠ 0)
    (hexponent : m.shortest.exponent = (292 : Nat)) : m.shortest.digits ≤ 17976931348623157 := by
  by_contra hmany
  have hnear := (abs_le.mp (Magnitude.shortest_near hm hzero (by omega))).2
  rw [hexponent, zpow_natCast, ← Magnitude.cast_tenTo] at hnear
  have hlargest : (2 * Magnitude.largest : ℚ) < 35953862697246315 * tenTo 292 := by
    have hlargest : 2 * Magnitude.largest < 35953862697246315 * tenTo 292 := by decide +kernel
    exact_mod_cast hlargest
  have hmore : (17976931348623158 : ℚ) * tenTo 292 ≤ m.shortest.digits * tenTo 292 := by
    refine mul_le_mul_of_nonneg_right ?_ (Nat.cast_nonneg _)
    exact_mod_cast Nat.succ_le_of_lt (not_le.mp hmany)
  linarith [hm.value_le]

theorem scalable_numeralOf {m : Magnitude} (hm : m.Finite) (hzero : m.significand ≠ 0) :
    Scalable (numeralOf m).significand (numeralOf m).scale := by
  have hmoderate := Magnitude.shortest_moderate hm hzero
  obtain ⟨hvalue, hscale⟩ := shifted_numeralOf hm hzero
  have hpos : 0 < (numeralOf m).significand := by
    refine Nat.pos_of_ne_zero fun hnone => ?_
    have hdigits : (0 : ℚ) < m.shortest.digits := by exact_mod_cast hmoderate.nonzero
    rw [Numeral.value, hnone, Nat.cast_zero, zero_mul] at hvalue
    exact absurd hvalue (by positivity)
  refine ⟨hpos, (spells_numeralOf hm).2.fits, ?_, ?_, ?_, ?_⟩
  · have hexponent := hmoderate.exponent
    rcases hscale with ⟨hlow, _⟩ | ⟨k, _, hk⟩ <;> omega
  · intro hsign
    rcases hscale with ⟨_, hneg⟩ | ⟨k, hdigits, _⟩
    · omega
    · exact (Nat.le_mul_of_pos_right _ (Nat.pow_pos (by decide))).trans
        (hdigits ▸ hmoderate.digits)
  · exact fun _ => (roundsTo_numeralOf hm hzero).le_limit
  · intro hnext
    rcases hscale with ⟨_, hneg⟩ | ⟨k, hdigits, hk⟩
    · omega
    · rcases Nat.eq_zero_or_pos k with rfl | hmore
      · rw [Nat.pow_zero, Nat.mul_one] at hdigits
        exact hdigits ▸ digits_le_of_next hm hzero (by omega)
      · -- with a zero after them, the digits are sixteen at most
        have hten : (numeralOf m).significand * 10 ≤ 10 ^ 17 :=
          calc (numeralOf m).significand * 10 ≤ (numeralOf m).significand * 10 ^ k :=
              Nat.mul_le_mul_left _ (Nat.le_self_pow hmore.ne' 10)
            _ ≤ 10 ^ 17 := hdigits ▸ hmoderate.digits
        omega

/-- Zero may come to another form of zero; the text is the same. -/
theorem steady_of_isZero {x : Double} (hzero : x.magnitude.isZero = true) : Steady x := by
  have hagain : again? x = (scaledDouble? 0 (-1)).map (⟨x.negative, ·⟩) := by
    rw [again?, numeralOf, if_pos hzero]
    rfl
  have hscaled : ∃ m, scaledDouble? 0 (-1) = some m ∧ m.isZero = true :=
    ⟨⟨0, -109⟩, by decide +kernel, rfl⟩
  obtain ⟨m, hm, hsame⟩ := hscaled
  refine ⟨⟨x.negative, m⟩, by rw [hagain, hm, Option.map_some], ?_⟩
  rw [doubleText_eq, doubleText_eq, unsignedText, unsignedText, if_pos hsame, if_pos hzero]

/-- **The text of a finite double is never refused.** -/
theorem exists_again? {x : Double} (hx : x.magnitude.Finite) : ∃ y, again? x = some y := by
  by_cases hzero : x.magnitude.isZero = true
  · obtain ⟨y, hy, _⟩ := steady_of_isZero hzero
    exact ⟨y, hy⟩
  · obtain ⟨m, hm⟩ :=
      exists_scaledDouble? (scalable_numeralOf hx (by simpa [Magnitude.isZero] using hzero))
    exact ⟨⟨x.negative, m⟩, by rw [again?, hm, Option.map_some]⟩

/-! ### Doubles that are rounded once -/

/-- The text of a double has a significand and a power of ten that are doubles. -/
structure Brief (x : Double) : Prop where
  significand : (numeralOf x.magnitude).significand < 2 ^ 53
  scale : (numeralOf x.magnitude).scale.natAbs ≤ 22

theorem Brief.again?_eq {x : Double} (h : Brief x) (hx : x.magnitude.Finite)
    (hzero : x.magnitude.significand ≠ 0) : again? x = some x := by
  have hscalable := scalable_numeralOf hx hzero
  have hpos : (0 : ℚ) < (numeralOf x.magnitude).significand := by exact_mod_cast hscalable.pos
  have honce := roundsTo_scaledDouble? hscalable.pos h.significand h.scale
  rw [again?, honce.eq (by positivity) (roundsTo_numeralOf hx hzero), Option.map_some]

/-- **A double that is rounded once is steady.** -/
theorem Brief.steady {x : Double} (h : Brief x) (hx : x.magnitude.Finite) : Steady x := by
  by_cases hzero : x.magnitude.isZero = true
  · exact steady_of_isZero hzero
  · exact ⟨x, h.again?_eq hx (by simpa [Magnitude.isZero] using hzero), rfl⟩

/-! ### Documents that are read again -/

section
variable {again : Number → Option Number}

theorem exists_rereadItems {vs : List Value} (h : ∀ v ∈ vs, ∃ w, v.reread again = some w) :
    ∃ ws, rereadItems again vs = some ws := by
  induction vs with
  | nil => exact ⟨[], rfl⟩
  | cons v vs ih =>
    obtain ⟨⟨w, hw⟩, hvs⟩ := List.forall_mem_cons.mp h
    obtain ⟨ws, hws⟩ := ih hvs
    exact ⟨w :: ws, by simp [rereadItems, hw, hws]⟩

theorem exists_rereadMembers {ms : List (String × Value)}
    (h : ∀ m ∈ ms, ∃ w, m.2.reread again = some w) : ∃ ns, rereadMembers again ms = some ns := by
  induction ms with
  | nil => exact ⟨[], rfl⟩
  | cons m ms ih =>
    obtain ⟨⟨w, hw⟩, hms⟩ := List.forall_mem_cons.mp h
    obtain ⟨ns, hns⟩ := ih hms
    exact ⟨(m.1, w) :: ns, by simp [rereadMembers, hw, hns]⟩

/-- A value is read if each of its numbers is. -/
theorem exists_reread {v : Value} (h : ∀ n, .number n ∈ v.parts → ∃ n', again n = some n') :
    ∃ w, v.reread again = some w := by
  induction v using Value.induct with
  | null => exact ⟨.null, rfl⟩
  | bool b => exact ⟨.bool b, rfl⟩
  | string s => exact ⟨.string s, rfl⟩
  | number n =>
    obtain ⟨n', hn'⟩ := h n (Value.mem_parts_self _)
    exact ⟨.number n', by rw [Value.reread, hn', Option.map_some]⟩
  | array items ih =>
    obtain ⟨ws, hws⟩ := exists_rereadItems fun v hv =>
      ih v hv fun n hn => h n (Value.mem_parts_array hv hn)
    exact ⟨.array ws, by rw [Value.reread, hws, Option.map_some]⟩
  | object ms ih =>
    obtain ⟨ns, hns⟩ := exists_rereadMembers fun m hm =>
      ih m hm fun n hn => h n (Value.mem_parts_object hm hn)
    exact ⟨.object ns, by rw [Value.reread, hns, Option.map_some]⟩

end

end NotebookTidy.Json

namespace NotebookTidy.Notebook
open Json

/-- A document that a reader may come to is read of its text as some document. -/
theorem parse_render_of_fits {v : Value} (h : v.Fits Number.Scanned maxDepth) :
    ∃ w, parse (render v) = .ok w := by
  obtain ⟨w, hw⟩ : ∃ w, v.reread Number.again? = some w := by
    refine exists_reread fun n hn => ?_
    cases h.numbers n hn with
    | @int i _ _ => exact ⟨.int i, rfl⟩
    | @float x finite =>
      obtain ⟨y, hy⟩ := exists_again? finite
      exact ⟨.float y, by rw [Number.again?, hy, Option.map_some]⟩
  exact ⟨w, (parse_render_iff h).mpr hw⟩

/-- **What is written of a notebook that was read is accepted**, whatever numbers are in it, and it
comes to the same text once more just when every double in it is steady; so it does if there are
none but brief ones. -/
theorem written_again_iff {text : String} {v : Value} (h : parse text = .ok v) :
    ∃ first w, written v = .ok first ∧ parse first = .ok w ∧
      (written w = .ok first ↔ ∀ x, .number (.float x) ∈ v.parts → Steady x) ∧
      ((∀ x, .number (.float x) ∈ v.parts → Brief x) → written w = .ok first) := by
  have hfits := fits_of_parse h
  obtain ⟨w, hw⟩ := parse_render_of_fits hfits
  have hsame : written w = .ok (render v) ↔
      ∀ x, .number (.float x) ∈ v.parts → Steady x := by
    rw [written_eq, Except.ok.injEq, render_reread_iff ((parse_render_iff hfits).mp hw),
      sameTexts_iff]
  refine ⟨render v, w, written_eq v, hw, hsame, fun hbrief => hsame.mpr fun x hx => ?_⟩
  cases hfits.numbers _ hx with
  | float finite => exact (hbrief x hx).steady finite

/-- An integer, and a double that is rounded once. -/
theorem written_again_tenth : ∃ v first w, parse "[1, -0.1e0]" = .ok v ∧
    (∀ x, .number (.float x) ∈ v.parts → Brief x) ∧
    written v = .ok first ∧ parse first = .ok w ∧ written w = .ok first := by
  let tenth : Decimal.Double := ⟨true, ⟨7205759403792794, -56⟩⟩
  have hparse : parse "[1, -0.1e0]" = .ok (.array [.number (.int 1), .number (.float tenth)]) := by
    decide +kernel
  have htenth : Brief tenth := ⟨by decide +kernel, by decide +kernel⟩
  have hbrief : ∀ x, .number (.float x) ∈
      (Value.array [.number (.int 1), .number (.float tenth)]).parts → Brief x := by
    intro x hx
    simp only [Value.parts, Value.partsOfItems, List.mem_cons, List.mem_append, List.not_mem_nil,
      or_false, reduceCtorEq, false_or, Value.number.injEq, Number.float.injEq] at hx
    exact hx ▸ htenth
  obtain ⟨first, w, hfirst, hw, _, hsame⟩ := written_again_iff hparse
  exact ⟨_, first, w, hparse, hbrief, hfirst, hw, hsame hbrief⟩

/-- The digits of a double that is not steady, with the zero after the point, are one too many for
a double; what they are rounded to is divided by ten. -/
theorem written_again_changes : ∃ v w, parse "7500000000000004e0" = .ok v ∧
    written v = .ok "7500000000000004.0\n" ∧ parse "7500000000000004.0\n" = .ok w ∧
    written w = .ok "7500000000000003.0\n" := by
  refine ⟨.number (.float ⟨false, ⟨7500000000000004, 0⟩⟩),
    .number (.float ⟨false, ⟨7500000000000003, 0⟩⟩), ?_, ?_, ?_, ?_⟩
  · decide +kernel
  · decide +kernel
  · decide +kernel
  · decide +kernel

end NotebookTidy.Notebook
