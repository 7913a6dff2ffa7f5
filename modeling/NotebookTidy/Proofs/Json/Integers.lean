import Mathlib.Algebra.Group.Int.Defs
import NotebookTidy.Json.NumberScan
import NotebookTidy.Json.Numeral

/-! Numbers are read as they were written.

A number reads as another one (`ReadsAs`), or as none, if that is what comes of its text before
anything that ends a number; it reads back (`ReadsBack`) if it reads as itself. Every integer of
64 bits does, signed if it is negative and unsigned if it is not (`readsBack_int`). -/
namespace NotebookTidy.Json
open Decimal

/-- Nothing that could go on with a number. -/
def EndsNumber (rest : List Char) : Prop :=
  ∀ c s, rest = c :: s → isDigit c = false ∧ c ∉ ['.', 'e', 'E', '+', '-']

theorem endsNumber_nil : EndsNumber [] := fun _ _ h => by cases h

theorem endsNumber_cons {c : Char} (hd : isDigit c = false) (hc : c ∉ ['.', 'e', 'E', '+', '-'])
    (s : List Char) : EndsNumber (c :: s) := by
  intro c' s' h
  cases h
  exact ⟨hd, hc⟩

theorem EndsNumber.ne {c : Char} {s : List Char} (h : EndsNumber (c :: s)) {d : Char}
    (hd : d ∈ ['.', 'e', 'E', '+', '-']) : c ≠ d := by
  rintro rfl
  exact (h c s rfl).2 hd

/-- What the text of a number, before anything that ends it, is read as; none if the reader
refuses it. -/
inductive Number.ReadsAs (n : Number) (again : Option Number) : Prop where
  | negative {cs : List Char} (text : n.text = '-' :: cs)
      (read : ∀ rest, EndsNumber rest →
        (numberRest true (cs ++ rest)).toOption = again.map (·, rest))
  | unsigned {c : Char} {cs : List Char} (text : n.text = c :: cs) (digit : isDigit c = true)
      (read : ∀ rest, EndsNumber rest →
        (numberRest false (c :: cs ++ rest)).toOption = again.map (·, rest))

/-- The text of a number, before anything that ends it, is read as the number. -/
def Number.ReadsBack (n : Number) : Prop := n.ReadsAs (some n)

/-! ### Digits -/

theorem digit?_of_isDigit {c : Char} (h : c.isDigit = true) : digit? c = some (c.toNat - '0'.toNat) := by
  simp only [Char.isDigit, Bool.and_eq_true, decide_eq_true_eq] at h
  rw [digit?, if_pos]
  exact ⟨h.1, h.2⟩

theorem isDigit_of_mem_digitsOf {n : Nat} {c : Char} (h : c ∈ digitsOf n) : c.isDigit = true :=
  Nat.isDigit_of_mem_toDigits (by decide) (by decide) h

theorem isDigit_of_digitsOf {n : Nat} {c : Char} {s : List Char} (h : digitsOf n = c :: s) :
    isDigit c = true := by
  have hc : c ∈ digitsOf n := by rw [h]; exact List.mem_cons_self
  rw [isDigit, digit?_of_isDigit (isDigit_of_mem_digitsOf hc)]
  rfl

theorem le_ofDigitChars (ds : List Char) (n : Nat) : n ≤ Nat.ofDigitChars 10 ds n := by
  rw [Nat.ofDigitChars_eq_ofDigitChars_zero]
  have : 0 < 10 ^ ds.length := Nat.pow_pos (by decide)
  have := Nat.le_mul_of_pos_left n this
  omega

theorem startsWithDigit_of_endsNumber {rest : List Char} (h : EndsNumber rest) :
    startsWithDigit rest = false := by
  cases rest with
  | nil => rfl
  | cons c s => exact (h c s rfl).1

/-- Digits are gathered as long as the number that they make fits. -/
theorem gather_digits {limit : Nat} {ds rest : List Char} (hds : ∀ c ∈ ds, c.isDigit = true)
    (hrest : startsWithDigit rest = false) (n count : Nat) (h : Nat.ofDigitChars 10 ds n ≤ limit) :
    gather limit n count (ds ++ rest) = (Nat.ofDigitChars 10 ds n, count + ds.length, rest) := by
  induction ds generalizing n count with
  | nil =>
    cases rest with
    | nil => rfl
    | cons c s =>
      have hnone : digit? c = none := by simpa [startsWithDigit, isDigit] using hrest
      simp [gather, hnone]
  | cons d ds ih =>
    rw [Nat.ofDigitChars_cons] at h ⊢
    have hd := digit?_of_isDigit (hds d List.mem_cons_self)
    have hfits : n * 10 + (d.toNat - '0'.toNat) ≤ limit := by
      have := le_ofDigitChars ds (10 * n + (d.toNat - '0'.toNat))
      omega
    have hcomm : n * 10 + (d.toNat - '0'.toNat) = 10 * n + (d.toNat - '0'.toNat) := by omega
    rw [List.cons_append, gather]
    simp only [hd, if_pos hfits]
    rw [hcomm, ih (fun c hc => hds c (List.mem_cons_of_mem d hc)) _ _ h]
    simp only [List.length_cons, Nat.add_assoc, Nat.add_comm 1]

theorem digitsOf_ne_nil (n : Nat) : digitsOf n ≠ [] := Nat.toDigits_ne_nil

/-- Only the digits of zero begin with a zero. -/
theorem digitsOf_head {n : Nat} (h : 0 < n) : ∃ c s, digitsOf n = c :: s ∧ c ≠ '0' := by
  induction n using Nat.strongRecOn with
  | _ n ih =>
    by_cases hn : n < 10
    · have hall : ∀ d < 10, 0 < d → d.digitChar ≠ '0' := by decide
      exact ⟨n.digitChar, [], Nat.toDigits_of_lt_base hn, hall n hn h⟩
    · obtain ⟨c, s, hcs, hc⟩ := ih (n / 10) (by omega) (by omega)
      refine ⟨c, s ++ [(n % 10).digitChar], ?_, hc⟩
      rw [digitsOf, Nat.toDigits_of_base_le (by decide) (by omega)]
      rw [digitsOf] at hcs
      rw [hcs, List.cons_append]

/-! ### Integers -/

theorem afterInteger_of_endsNumber {rest : List Char} (h : EndsNumber rest) (negative : Bool)
    (n : Nat) : afterInteger negative n rest = .ok (finishInteger negative n, rest) := by
  cases rest with
  | nil => rfl
  | cons c s =>
    rw [afterInteger]
    · rintro s' hs
      cases hs
      exact h.ne (by decide) rfl
    · rintro s' hs
      cases hs
      exact h.ne (by decide) rfl
    · rintro s' hs
      cases hs
      exact h.ne (by decide) rfl

/-- Digits that are not too many are read as the number that they make, unless a zero comes
before others of them. -/
theorem numberRest_digits {c : Char} {ds rest : List Char}
    (hds : ∀ d ∈ c :: ds, d.isDigit = true) (hc : c = '0' → ds = [])
    (hfits : Nat.ofDigitChars 10 (c :: ds) 0 ≤ maxSignificand)
    (hrest : startsWithDigit rest = false) (negative : Bool) :
    numberRest negative (c :: ds ++ rest) =
      afterInteger negative (Nat.ofDigitChars 10 (c :: ds) 0) rest := by
  by_cases hzero : c = '0'
  · obtain rfl := hc hzero
    subst hzero
    rw [List.singleton_append, numberRest, if_pos rfl, if_neg (by simp [hrest])]
    rfl
  · have hdigit : isDigit c = true := by
      rw [isDigit, digit?_of_isDigit (hds c List.mem_cons_self)]
      rfl
    have hgather := gather_digits hds hrest 0 0 hfits
    rw [List.cons_append] at hgather
    rw [List.cons_append, numberRest, if_neg hzero, if_pos hdigit, hgather]
    simp only [hrest]
    rfl

theorem numberRest_digitsOf {n : Nat} (hn : n ≤ maxSignificand) {rest : List Char}
    (h : EndsNumber rest) (negative : Bool) :
    numberRest negative (digitsOf n ++ rest) = .ok (finishInteger negative n, rest) := by
  have hvalue : Nat.ofDigitChars 10 (digitsOf n) 0 = n := Nat.ofDigitChars_ten_toDigits
  have hds : ∀ d ∈ digitsOf n, d.isDigit = true := fun d => isDigit_of_mem_digitsOf
  obtain ⟨c, s, hcs⟩ := List.exists_cons_of_ne_nil (digitsOf_ne_nil n)
  have hlead : c = '0' → s = [] := by
    rintro rfl
    rcases Nat.eq_zero_or_pos n with rfl | hpos
    · rw [show digitsOf 0 = ['0'] from Nat.toDigits_zero 10] at hcs
      exact (List.cons.inj hcs).2.symm
    · obtain ⟨c', s', hcs', hne⟩ := digitsOf_head hpos
      rw [hcs] at hcs'
      exact absurd (List.cons.inj hcs').1.symm hne
  rw [hcs] at hvalue hds ⊢
  rw [numberRest_digits hds hlead (hvalue ▸ hn) (startsWithDigit_of_endsNumber h), hvalue,
    afterInteger_of_endsNumber h]

/-- An integer of 64 bits reads back. -/
theorem readsBack_int {i : Int} (hl : -2 ^ 63 ≤ i) (hu : i < 2 ^ 64) : (Number.int i).ReadsBack := by
  have hmax : maxSignificand = 2 ^ 64 - 1 := by decide
  have hmin : twoTo 63 = 2 ^ 63 := by decide
  by_cases hi : i < 0
  · refine .negative (by rw [Number.text, intDigits, if_pos hi]) fun rest h => ?_
    rw [numberRest_digitsOf (by omega) h, finishInteger, if_pos rfl, if_pos (by omega)]
    have habs : -(i.natAbs : Int) = i := by omega
    rw [habs]
    rfl
  · obtain ⟨c, s, hcs⟩ := List.exists_cons_of_ne_nil (digitsOf_ne_nil i.natAbs)
    refine .unsigned (by rw [Number.text, intDigits, if_neg hi, hcs]) (isDigit_of_digitsOf hcs)
      fun rest h => ?_
    rw [← hcs, numberRest_digitsOf (by omega) h, finishInteger, if_neg (by decide)]
    have habs : (i.natAbs : Int) = i := by omega
    rw [habs]
    rfl

end NotebookTidy.Json
