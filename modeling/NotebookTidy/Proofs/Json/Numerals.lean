import NotebookTidy.Proofs.Json.Integers
import NotebookTidy.Proofs.Json.Read

/-! Numerals: what is read of digits, a point and an exponent.

A numeral has digits before a point and after it, and an exponent; it may be spelled with either
of the two left out (`Spells`). If its digits are not too many, no zero comes before others of
them and its exponent is not too long, then none of it is dropped: it is read as the double of
its significand, scaled by its exponent (`numberRest_of_spells`). -/
namespace NotebookTidy.Json

/-- Digits before the point and after it, and an exponent. -/
structure Numeral where
  whole : List Char
  fraction : List Char
  exponent : Int

namespace Numeral

def significand (n : Numeral) : Nat := Nat.ofDigitChars 10 (n.whole ++ n.fraction) 0

/-- The power of ten that the significand is multiplied by. -/
def scale (n : Numeral) : Int := n.exponent - n.fraction.length

/-- What a reader takes whole. -/
structure Readable (n : Numeral) : Prop where
  digits : ∀ c ∈ n.whole ++ n.fraction, c.isDigit = true
  leading : ∃ c cs, n.whole = c :: cs ∧ (c = '0' → cs = [])
  fits : n.significand ≤ maxSignificand
  short : n.exponent.natAbs ≤ maxWrittenExponent

end Numeral

def exponentText (x : Int) : List Char :=
  'e' :: (if x < 0 then '-' else '+') :: digitsOf x.natAbs

/-- How a numeral is spelled: without an exponent that is zero, or without a fraction that is
empty. -/
inductive Spells : Numeral → List Char → Prop where
  | point {whole fraction : List Char} (h : fraction ≠ []) :
      Spells ⟨whole, fraction, 0⟩ (whole ++ '.' :: fraction)
  | scientific {whole fraction : List Char} (h : fraction ≠ []) (x : Int) :
      Spells ⟨whole, fraction, x⟩ (whole ++ '.' :: (fraction ++ exponentText x))
  | bare (whole : List Char) (x : Int) : Spells ⟨whole, [], x⟩ (whole ++ exponentText x)

variable {negative : Bool} {rest : List Char}

/-! ### The parts of a number

What makes the double is left closed here: nothing is to be evaluated of it. -/

theorem doubleEnd_of_endsNumber (h : EndsNumber rest) (significand : Nat) (exponent : Int) :
    doubleEnd negative significand exponent rest =
      finishDouble negative significand exponent rest := by
  rw [doubleEnd.eq_def]
  split
  · exact absurd rfl (h.ne (by decide))
  · exact absurd rfl (h.ne (by decide))
  · exact Eq.refl _

theorem doubleEnd_e (significand : Nat) (exponent : Int) (s : List Char) :
    doubleEnd negative significand exponent ('e' :: s) =
      exponentPart negative significand exponent s := by
  rw [doubleEnd.eq_def]
  split
  · next h =>
    cases h
    exact Eq.refl _
  · next h => cases h
  · next h _ => exact absurd rfl (h s)

theorem fractionPart_digits {ds : List Char} (hne : ds ≠ []) (hds : ∀ c ∈ ds, c.isDigit = true)
    (hrest : startsWithDigit rest = false) {significand : Nat} (exponent : Int)
    (hfits : Nat.ofDigitChars 10 ds significand ≤ maxSignificand) :
    fractionPart negative significand exponent (ds ++ rest) =
      doubleEnd negative (Nat.ofDigitChars 10 ds significand) (exponent - ds.length) rest := by
  have hlength : ds.length ≠ 0 := by simpa using hne
  rw [fractionPart, gather_digits hds hrest significand 0 hfits]
  simp only [hrest, Nat.zero_add, hlength, Bool.false_eq_true, if_false]

/-- A sign always comes before the digits of an exponent. -/
theorem exponentPart_signed (hrest : startsWithDigit rest = false) (significand : Nat)
    (exponent : Int) {x : Int} (hx : x.natAbs ≤ maxWrittenExponent) :
    exponentPart negative significand exponent
      ((if x < 0 then '-' else '+') :: (digitsOf x.natAbs ++ rest)) =
        finishDouble negative significand (exponent + x) rest := by
  have hvalue : Nat.ofDigitChars 10 (digitsOf x.natAbs) 0 = x.natAbs :=
    Nat.ofDigitChars_ten_toDigits
  have hgather := gather_digits (fun c => isDigit_of_mem_digitsOf) hrest 0 0 (hvalue ▸ hx)
  obtain ⟨c, s, hcs⟩ := List.exists_cons_of_ne_nil (digitsOf_ne_nil x.natAbs)
  have hdigit := isDigit_of_digitsOf hcs
  rw [hvalue, hcs, List.cons_append] at hgather
  rw [exponentPart.eq_def, hcs, List.cons_append]
  split
  next down s' hsign =>
  by_cases hneg : x < 0
  · have hsum : exponent - (x.natAbs : Int) = exponent + x := by omega
    rw [if_pos hneg] at hsign
    cases hsign
    simp only [hdigit, hgather, hrest, hsum, if_true, Bool.false_eq_true, if_false]
  · have hsum : exponent + (x.natAbs : Int) = exponent + x := by omega
    rw [if_neg hneg] at hsign
    cases hsign
    simp only [hdigit, hgather, hrest, hsum, if_true, Bool.false_eq_true, if_false]

theorem doubleEnd_exponentText (h : EndsNumber rest) (significand : Nat) (exponent : Int)
    {x : Int} (hx : x.natAbs ≤ maxWrittenExponent) :
    doubleEnd negative significand exponent (exponentText x ++ rest) =
      finishDouble negative significand (exponent + x) rest := by
  rw [exponentText, List.cons_append, List.cons_append, doubleEnd_e,
    exponentPart_signed (startsWithDigit_of_endsNumber h) significand exponent hx]

theorem afterInteger_point (significand : Nat) (s : List Char) :
    afterInteger negative significand ('.' :: s) = fractionPart negative significand 0 s := by
  rw [afterInteger.eq_def]
  split
  · next h =>
    cases h
    exact Eq.refl _
  · next h => cases h
  · next h => cases h
  · next h _ _ => exact absurd rfl (h s)

theorem afterInteger_e (significand : Nat) (s : List Char) :
    afterInteger negative significand ('e' :: s) = exponentPart negative significand 0 s := by
  rw [afterInteger.eq_def]
  split
  · next h => cases h
  · next h =>
    cases h
    exact Eq.refl _
  · next h => cases h
  · next _ h _ => exact absurd rfl (h s)

/-! ### Numerals that are read -/

/-- The digits of a numeral are read, and then what ends it. -/
theorem numberRest_point {n : Numeral} (hn : n.Readable) (hne : n.fraction ≠ [])
    {tail : List Char} (htail : startsWithDigit tail = false) :
    numberRest negative (n.whole ++ '.' :: (n.fraction ++ tail)) =
      doubleEnd negative n.significand (0 - n.fraction.length) tail := by
  obtain ⟨hdigits, ⟨c, cs, hwhole, hlead⟩, hfits, _⟩ := hn
  have hvalue : n.significand =
      Nat.ofDigitChars 10 n.fraction (Nat.ofDigitChars 10 n.whole 0) := by
    rw [Numeral.significand, Nat.ofDigitChars_append]
  have hfraction : ∀ d ∈ n.fraction, d.isDigit = true := fun d hd =>
    hdigits d (List.mem_append_right _ hd)
  have hdigitsWhole : ∀ d ∈ c :: cs, d.isDigit = true := fun d hd =>
    hdigits d (List.mem_append_left _ (hwhole ▸ hd))
  have hwholeFits : Nat.ofDigitChars 10 (c :: cs) 0 ≤ maxSignificand := by
    rw [← hwhole]
    exact (le_ofDigitChars n.fraction _).trans (hvalue ▸ hfits)
  rw [hvalue] at hfits ⊢
  rw [hwhole] at hfits ⊢
  rw [numberRest_digits hdigitsWhole hlead hwholeFits rfl, afterInteger_point,
    fractionPart_digits hne hfraction htail 0 hfits]

/-- A numeral is read whole. -/
theorem numberRest_of_spells {n : Numeral} (hn : n.Readable) {text : List Char}
    (h : Spells n text) (hrest : EndsNumber rest) :
    numberRest negative (text ++ rest) = finishDouble negative n.significand n.scale rest := by
  cases h with
  | point hne =>
    rw [List.append_assoc, List.cons_append,
      numberRest_point hn hne (startsWithDigit_of_endsNumber hrest),
      doubleEnd_of_endsNumber hrest, Numeral.scale]
  | @scientific whole fraction hne x =>
    have hscale : 0 - (fraction.length : Int) + x = x - fraction.length := by omega
    rw [List.append_assoc, List.cons_append, List.append_assoc, numberRest_point hn hne rfl,
      doubleEnd_exponentText hrest _ _ hn.short, Numeral.scale, hscale]
  | bare whole x =>
    obtain ⟨hdigits, ⟨c, cs, rfl, hlead⟩, hfits, hshort⟩ := hn
    rw [Numeral.significand, List.append_nil] at hfits
    rw [List.append_nil] at hdigits
    have hscale : (0 : Int) + x = x - (0 : Nat) := by omega
    rw [List.append_assoc, numberRest_digits hdigits hlead hfits rfl, exponentText,
      List.cons_append, List.cons_append, afterInteger_e,
      exponentPart_signed (startsWithDigit_of_endsNumber hrest) _ _ hshort, Numeral.significand,
      Numeral.scale, List.append_nil, List.length_nil, hscale]

end NotebookTidy.Json
