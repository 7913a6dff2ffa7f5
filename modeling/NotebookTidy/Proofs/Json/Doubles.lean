import NotebookTidy.Proofs.Decimal.Shortest
import NotebookTidy.Proofs.Json.Numerals

/-! What is read of the text of a double.

The text of a double spells a numeral (`numeralOf`), which is its shortest decimal with the point
moved. The digits of that are few enough for a reader to take all of them, so what is read is
the double of the numeral's significand, scaled by its exponent (`readsAs_of_scanned`). That need
not be the double that was written, since the scaling rounds once more. -/
namespace NotebookTidy.Json
open Decimal

/-! ### The numeral of a double -/

def positionalNumeral (ds : List Char) (x : Int) : Numeral :=
  if x < 0 then ⟨['0'], List.replicate (-x - 1).toNat '0' ++ ds, 0⟩
  else
    let whole := x.toNat + 1
    let padded := ds ++ List.replicate (whole - ds.length) '0'
    ⟨padded.take whole, if (padded.drop whole).isEmpty then ['0'] else padded.drop whole, 0⟩

def scientificNumeral (ds : List Char) (x : Int) : Numeral := ⟨ds.take 1, ds.drop 1, x⟩

/-- The numeral that the text of a double spells, apart from its sign. -/
def numeralOf (m : Magnitude) : Numeral :=
  if m.isZero then ⟨['0'], ['0'], 0⟩
  else
    let s := m.shortest
    let x : Int := s.exponent + (digitsOf s.digits).length - 1
    let ds := significantDigits s
    if leastPositional ≤ x ∧ x ≤ mostPositional then positionalNumeral ds x
    else scientificNumeral ds x

/-- Digits that do not reach the point are filled up with zeros, and one stands after it. -/
theorem positionalNumeral_of_le {ds : List Char} {x : Int} (hx : 0 ≤ x)
    (h : ds.length ≤ x.toNat + 1) : positionalNumeral ds x =
      ⟨ds ++ List.replicate (x.toNat + 1 - ds.length) '0', ['0'], 0⟩ := by
  have hlength : (ds ++ List.replicate (x.toNat + 1 - ds.length) '0').length = x.toNat + 1 := by
    rw [List.length_append, List.length_replicate]
    omega
  simp only [positionalNumeral, if_neg (show ¬ x < 0 by omega),
    List.take_of_length_le hlength.le, List.drop_of_length_le hlength.le, List.isEmpty_nil, if_true]

theorem positionalNumeral_of_lt {ds : List Char} {x : Int} (hx : 0 ≤ x)
    (h : x.toNat + 1 < ds.length) :
    positionalNumeral ds x = ⟨ds.take (x.toNat + 1), ds.drop (x.toNat + 1), 0⟩ := by
  have hpadding : List.replicate (x.toNat + 1 - ds.length) '0' = [] := by
    rw [show x.toNat + 1 - ds.length = 0 by omega, List.replicate_zero]
  have hmore : (ds.drop (x.toNat + 1)).isEmpty = false := by simpa using h
  simp only [positionalNumeral, if_neg (show ¬ x < 0 by omega), hpadding, List.append_nil, hmore,
    Bool.false_eq_true, if_false]

theorem spells_positional {ds : List Char} (hds : ds ≠ []) (x : Int) :
    Spells (positionalNumeral ds x) (positional ds x) := by
  rw [positionalNumeral, positional]
  split
  · rw [List.cons_append, List.cons_append]
    exact @Spells.point ['0'] _ (by simp [hds])
  · refine Spells.point ?_
    split
    · simp
    · next h => simpa using h

theorem spells_scientific {ds : List Char} (hds : ds ≠ []) (x : Int) :
    Spells (scientificNumeral ds x) (withExponent ds x) := by
  match ds, hds with
  | [d], _ => exact Spells.bare [d] x
  | d :: e :: rest, _ => exact @Spells.scientific [d] (e :: rest) (by simp) x

/-! ### Digits that are read whole -/

theorem ofDigitChars_lt {ds : List Char} (hds : ∀ c ∈ ds, c.isDigit = true) (n : Nat) :
    Nat.ofDigitChars 10 ds n < (n + 1) * 10 ^ ds.length := by
  induction ds generalizing n with
  | nil => simp
  | cons d ds ih =>
    obtain ⟨hd, hds⟩ := List.forall_mem_cons.mp hds
    have hnine : d.toNat - '0'.toNat ≤ 9 := by
      simp only [Char.isDigit, Bool.and_eq_true, decide_eq_true_eq] at hd
      have hle : d.toNat ≤ 57 := UInt32.le_iff_toNat_le.mp hd.2
      exact Nat.sub_le_of_le_add hle
    have hlt := ih hds (10 * n + (d.toNat - '0'.toNat))
    rw [Nat.ofDigitChars_cons, List.length_cons, Nat.pow_succ]
    calc _ < (10 * n + (d.toNat - '0'.toNat) + 1) * 10 ^ ds.length := hlt
      _ ≤ ((n + 1) * 10) * 10 ^ ds.length := Nat.mul_le_mul_right _ (by omega)
      _ = (n + 1) * (10 ^ ds.length * 10) := by ring

theorem ofDigitChars_zeros (k : Nat) (ds : List Char) :
    Nat.ofDigitChars 10 (List.replicate k '0' ++ ds) 0 = Nat.ofDigitChars 10 ds 0 := by
  induction k with
  | zero => rfl
  | succ k ih =>
    rw [List.replicate_succ, List.cons_append, Nat.ofDigitChars_cons]
    exact ih

/-- Digits that do not begin with a zero, few enough for a reader. -/
structure Significant (ds : List Char) : Prop where
  digits : ∀ c ∈ ds, c.isDigit = true
  leading : ∃ c cs, ds = c :: cs ∧ c ≠ '0'
  few : Nat.ofDigitChars 10 ds 0 ≤ 10 ^ 17

theorem Significant.ne_nil {ds : List Char} (h : Significant ds) : ds ≠ [] := by
  obtain ⟨c, cs, rfl, _⟩ := h.leading
  simp

theorem isDigit_of_mem_zeros {k : Nat} {c : Char} (h : c ∈ List.replicate k '0') :
    c.isDigit = true := by
  rw [List.eq_of_mem_replicate h]
  decide

theorem readable_scientific {ds : List Char} (h : Significant ds) {x : Int}
    (hx : x.natAbs ≤ maxWrittenExponent) : (scientificNumeral ds x).Readable := by
  have hmax : (10 : Nat) ^ 17 ≤ maxSignificand := by decide
  refine ⟨?_, ?_, ?_, hx⟩
  · rw [scientificNumeral, List.take_append_drop]
    exact h.digits
  · obtain ⟨c, cs, rfl, hc⟩ := h.leading
    exact ⟨c, [], rfl, fun _ => rfl⟩
  · rw [Numeral.significand, scientificNumeral, List.take_append_drop]
    exact h.few.trans hmax

theorem readable_positional {ds : List Char} (h : Significant ds) {x : Int}
    (hx : x ≤ mostPositional) : (positionalNumeral ds x).Readable := by
  have hmax : (10 : Nat) ^ 17 ≤ maxSignificand := by decide
  have hmost : mostPositional = 15 := rfl
  obtain ⟨c, cs, hcs, hc⟩ := h.leading
  by_cases hneg : x < 0
  · rw [positionalNumeral, if_pos hneg]
    refine ⟨?_, ⟨'0', [], rfl, fun _ => rfl⟩, ?_, Nat.zero_le _⟩
    · intro c hc
      simp only [List.singleton_append, List.mem_cons, List.mem_append] at hc
      rcases hc with rfl | hc | hc
      · decide
      · exact isDigit_of_mem_zeros hc
      · exact h.digits c hc
    · have hvalue := ofDigitChars_zeros ((-x - 1).toNat + 1) ds
      rw [List.replicate_succ, List.cons_append] at hvalue
      rw [Numeral.significand, List.singleton_append, hvalue]
      exact h.few.trans hmax
  · by_cases hshort : ds.length ≤ x.toNat + 1
    · rw [positionalNumeral_of_le (by omega) hshort]
      have hdigits : ∀ d ∈ ds ++ List.replicate (x.toNat + 1 - ds.length) '0' ++ ['0'],
          d.isDigit = true := by
        intro d hd
        simp only [List.mem_append, List.mem_singleton] at hd
        rcases hd with (hd | hd) | rfl
        · exact h.digits d hd
        · exact isDigit_of_mem_zeros hd
        · decide
      refine ⟨hdigits, ⟨c, cs ++ _, by rw [hcs, List.cons_append], fun he => absurd he hc⟩, ?_,
        Nat.zero_le _⟩
      have hlength : (ds ++ List.replicate (x.toNat + 1 - ds.length) '0' ++ ['0']).length ≤ 17 := by
        simp only [List.length_append, List.length_replicate, List.length_singleton]
        omega
      have hlt := ofDigitChars_lt hdigits 0
      rw [Nat.zero_add, Nat.one_mul] at hlt
      exact (hlt.le.trans (Nat.pow_le_pow_right (by decide) hlength)).trans hmax
    · rw [positionalNumeral_of_lt (by omega) (by omega)]
      refine ⟨?_, ⟨c, cs.take x.toNat, by rw [hcs, List.take_succ_cons], fun he => absurd he hc⟩,
        ?_, Nat.zero_le _⟩
      · rw [List.take_append_drop]
        exact h.digits
      · rw [Numeral.significand, List.take_append_drop]
        exact h.few.trans hmax

/-! ### The digits of the shortest decimal -/

/-- Only zeros are left out. -/
theorem significantDigits_append (s : Scientific) :
    ∃ k, digitsOf s.digits = significantDigits s ++ List.replicate k '0' := by
  let zeros := (digitsOf s.digits).reverse.takeWhile (· == '0')
  have hzeros : zeros.reverse = List.replicate zeros.length '0' := by
    refine List.eq_replicate_iff.mpr ⟨List.length_reverse, fun c hc => ?_⟩
    have hall := List.all_takeWhile (p := (· == '0')) (l := (digitsOf s.digits).reverse)
    simpa using List.all_eq_true.mp hall c (List.mem_reverse.mp hc)
  refine ⟨zeros.length, ?_⟩
  rw [← hzeros, significantDigits, ← List.reverse_append, List.takeWhile_append_dropWhile,
    List.reverse_reverse]

theorem significant_of_moderate {s : Scientific} (hs : Magnitude.Moderate s) :
    Significant (significantDigits s) := by
  obtain ⟨k, hk⟩ := significantDigits_append s
  have hvalue : Nat.ofDigitChars 10 (digitsOf s.digits) 0 = s.digits :=
    Nat.ofDigitChars_ten_toDigits
  refine ⟨fun c hc => ?_, ?_, ?_⟩
  · exact isDigit_of_mem_digitsOf (hk ▸ List.mem_append_left _ hc)
  · obtain ⟨c, cs, hcs, hc⟩ := digitsOf_head hs.nonzero
    rw [hk] at hcs
    cases hds : significantDigits s with
    | nil =>
      rw [hds, List.nil_append] at hcs
      have hmem : c ∈ List.replicate k '0' := hcs ▸ List.mem_cons_self
      exact absurd (List.eq_of_mem_replicate hmem) hc
    | cons d ds =>
      rw [hds, List.cons_append] at hcs
      exact ⟨d, ds, rfl, (List.cons.inj hcs).1 ▸ hc⟩
  · rw [hk, Nat.ofDigitChars_append] at hvalue
    exact (le_ofDigitChars (List.replicate k '0') _).trans (hvalue.le.trans hs.digits)

theorem length_digitsOf_le {n : Nat} (h : n ≤ 10 ^ 17) : (digitsOf n).length ≤ 18 :=
  (Nat.length_toDigits_le_iff (by decide) (by decide)).mpr (by omega)

/-! ### Reading the text of a double -/

/-- The text of a double apart from its sign. -/
def unsignedText (m : Magnitude) : List Char :=
  if m.isZero then ['0', '.', '0'] else magnitudeText m

theorem doubleText_eq (x : Double) : doubleText x =
    if x.negative then '-' :: unsignedText x.magnitude else unsignedText x.magnitude := by
  rw [doubleText, unsignedText]

/-- The text of a double spells its numeral, and all of it is read. -/
theorem spells_numeralOf {m : Magnitude} (hm : m.Finite) :
    Spells (numeralOf m) (unsignedText m) ∧ (numeralOf m).Readable := by
  rw [numeralOf, unsignedText]
  cases hzero : m.isZero with
  | true =>
    rw [if_pos rfl, if_pos rfl]
    have hdigits : ∀ c ∈ ['0'] ++ ['0'], c.isDigit = true := fun c => @isDigit_of_mem_zeros 2 c
    exact ⟨@Spells.point ['0'] ['0'] (by simp), hdigits, ⟨'0', [], rfl, fun _ => rfl⟩, by decide,
      by decide⟩
  | false =>
    have hmoderate := Magnitude.shortest_moderate hm (by simpa [Magnitude.isZero] using hzero)
    have hds := significant_of_moderate hmoderate
    have hlength := length_digitsOf_le hmoderate.digits
    have hexponent := hmoderate.exponent
    simp only [Bool.false_eq_true, if_false, magnitudeText]
    split
    · next hplace => exact ⟨spells_positional hds.ne_nil _, readable_positional hds hplace.2⟩
    · have hmax : maxWrittenExponent = 2147483647 := by decide
      exact ⟨spells_scientific hds.ne_nil _, readable_scientific hds (by omega)⟩

/-- The double that is read of the text of a double; none if it is refused. -/
def again? (x : Double) : Option Double :=
  (scaledDouble? (numeralOf x.magnitude).significand (numeralOf x.magnitude).scale).map
    (⟨x.negative, ·⟩)

/-- Integers are read as themselves. -/
def Number.again? : Number → Option Number
  | .int i => some (.int i)
  | .float x => (Json.again? x).map .float

theorem toOption_finishDouble (negative : Bool) (significand : Nat) (exponent : Int)
    (rest : List Char) : (finishDouble negative significand exponent rest).toOption =
      (scaledDouble? significand exponent).map fun m => (.float ⟨negative, m⟩, rest) := by
  rw [finishDouble_eq]
  beta_reduce
  cases scaledDouble? significand exponent <;> rfl

theorem begins_of_spells {n : Numeral} (hn : n.Readable) {text : List Char} (h : Spells n text) :
    ∃ c cs, text = c :: cs ∧ isDigit c = true := by
  obtain ⟨c, cs, hwhole, _⟩ := hn.leading
  have hdigit : isDigit c = true := by
    rw [isDigit, digit?_of_isDigit (hn.digits c (List.mem_append_left _ (hwhole ▸ List.mem_cons_self)))]
    rfl
  obtain ⟨tail, rfl⟩ : ∃ tail, text = n.whole ++ tail := by cases h <;> exact ⟨_, rfl⟩
  exact ⟨c, cs ++ tail, by rw [hwhole, List.cons_append], hdigit⟩

/-- What is read of the text of a number that was read. -/
theorem readsAs_of_scanned {n : Number} (h : n.Scanned) : n.ReadsAs n.again? := by
  cases h with
  | int low high => exact readsBack_int low high
  | @float x finite =>
    obtain ⟨hspells, hreadable⟩ := spells_numeralOf finite
    have hread : ∀ rest, EndsNumber rest →
        (numberRest x.negative (unsignedText x.magnitude ++ rest)).toOption =
          (Number.again? (.float x)).map (·, rest) := by
      intro rest hrest
      rw [numberRest_of_spells hreadable hspells hrest, toOption_finishDouble, Number.again?,
        Json.again?, Option.map_map, Option.map_map]
      rfl
    cases hsign : x.negative with
    | true =>
      rw [hsign] at hread
      exact .negative (by rw [Number.text, doubleText_eq, if_pos hsign]) hread
    | false =>
      obtain ⟨c, cs, htext, hdigit⟩ := begins_of_spells hreadable hspells
      rw [hsign, htext] at hread
      refine .unsigned ?_ hdigit hread
      rw [Number.text, doubleText_eq, if_neg (by simp [hsign]), htext]

end NotebookTidy.Json
