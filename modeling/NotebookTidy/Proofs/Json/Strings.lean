import NotebookTidy.Json.Quoted
import NotebookTidy.Json.Scan

/-! Strings are read as they were written.

A rule for escaping characters is undone by the reader (`Unescapes`) if reading what it
makes of a character comes to reading the character itself. Both rules are: the one for plain
text (`unescapes_escape`) and the one for ASCII text (`unescapes_escapeAscii`), where a
character takes four digits, or eight in two halves. -/
namespace NotebookTidy.Json

/-- What a character is escaped to is read as the character. -/
def Unescapes (esc : Char → List Char) : Prop :=
  ∀ c read rest, stringBody read 0 (esc c ++ rest) = stringBody (c :: read) 0 rest

/-! ### Four hexadecimal digits -/

theorem hexValue?_hexDigit {d : Nat} (h : d < 16) : Text.hexValue? (Text.hexDigit d) = some d := by
  have hall : ∀ d < 16, Text.hexValue? (Text.hexDigit d) = some d := by decide
  exact hall d h

/-- The digits of a unit after `\u`. -/
def unitDigits (n : Nat) : List Char :=
  [n / 4096, n / 256, n / 16, n].map fun q => Text.hexDigit (q % 16)

theorem unitEscape_eq (n : Nat) : unitEscape n = '\\' :: 'u' :: unitDigits n := rfl

theorem hexNumber?_unitDigits {n : Nat} (h : n < 65536) : hexNumber? (unitDigits n) = some n := by
  have hdigit : ∀ q : Nat, Text.hexValue? (Text.hexDigit (q % 16)) = some (q % 16) :=
    fun q => hexValue?_hexDigit (Nat.mod_lt q (by decide))
  simp only [unitDigits, List.map_cons, List.map_nil, hexNumber?, hdigit, Option.bind_eq_bind,
    Option.bind_some, Option.pure_def, Option.some.injEq]
  omega

theorem length_of_hexNumber? {digits : List Char} {n : Nat} (h : hexNumber? digits = some n) :
    digits.length = 4 := by
  rw [hexNumber?.eq_def] at h
  split at h
  · rfl
  · cases h

theorem hexUnit_digits {digits : List Char} {n : Nat} (h : hexNumber? digits = some n)
    (rest : List Char) : hexUnit (digits ++ rest) = .ok (n, rest) := by
  have htake : (digits ++ rest).take 4 = digits := by
    rw [← length_of_hexNumber? h, List.take_left]
  have hdrop : (digits ++ rest).drop 4 = rest := by
    rw [← length_of_hexNumber? h, List.drop_left]
  rw [hexUnit, htake, h]
  simp only [hdrop]

/-! ### Escapes -/

/-- Characters that are read already are left out. -/
theorem stringBody_skip (read done rest : List Char) :
    stringBody read done.length (done ++ rest) = stringBody read 0 rest := by
  induction done with
  | nil => rfl
  | cons c done ih => exact ih

theorem stringBody_escape {read done rest : List Char} {c : Char}
    (h : escapeSequence (done ++ rest) = .ok (c, done.length)) :
    stringBody read 0 ('\\' :: done ++ rest) = stringBody (c :: read) 0 rest := by
  rw [List.cons_append, stringBody]
  simp only [h, show ('\\' : Char) ≠ '"' by decide, if_false, if_true]
  exact stringBody_skip (c :: read) done rest

theorem stringBody_letter {letter c : Char} (h : letterEscape? letter = some c)
    (read rest : List Char) :
    stringBody read 0 (['\\', letter] ++ rest) = stringBody (c :: read) 0 rest := by
  refine @stringBody_escape read [letter] rest c ?_
  simp [escapeSequence, h]

theorem stringBody_plain {c : Char} (hq : c ≠ '"') (hb : c ≠ '\\') (hc : ¬ c.toNat < 0x20)
    (read rest : List Char) : stringBody read 0 ([c] ++ rest) = stringBody (c :: read) 0 rest := by
  simp [stringBody, hq, hb, hc]

theorem escapeSequence_u (s : List Char) :
    escapeSequence ('u' :: s) = (unicodeEscape s).bind fun p => .ok (p.1, 1 + p.2) := rfl

/-- One unit that is no half of a pair. -/
theorem stringBody_unit {digits : List Char} {n : Nat} (h : hexNumber? digits = some n)
    (hs : ¬ (0xd800 ≤ n ∧ n ≤ 0xdfff)) (read rest : List Char) :
    stringBody read 0 ('\\' :: 'u' :: digits ++ rest) =
      stringBody (Char.ofNat n :: read) 0 rest := by
  refine stringBody_escape ?_
  have hlow : isLowSurrogate n = false := by simp [isLowSurrogate]; omega
  have hhigh : isHighSurrogate n = false := by simp [isHighSurrogate]; omega
  rw [List.cons_append, escapeSequence_u, unicodeEscape, hexUnit_digits h]
  simp [bind, Except.bind, hlow, hhigh, length_of_hexNumber? h]

/-- Two halves of a pair. -/
theorem stringBody_pair {digits digits' : List Char} {high low : Nat}
    (h : hexNumber? digits = some high) (h' : hexNumber? digits' = some low)
    (hh : 0xd800 ≤ high ∧ high ≤ 0xdbff) (hl : 0xdc00 ≤ low ∧ low ≤ 0xdfff)
    (read rest : List Char) :
    stringBody read 0 ('\\' :: ('u' :: digits ++ '\\' :: 'u' :: digits') ++ rest) =
      stringBody (Char.ofNat ((high - 0xd800) * 1024 + (low - 0xdc00) + 0x10000) :: read) 0 rest := by
  have hnotLow : isLowSurrogate high = false := by simp [isLowSurrogate]; omega
  have hhigh : isHighSurrogate high = true := by simp [isHighSurrogate]; omega
  have hlow : isLowSurrogate low = true := by simp [isLowSurrogate]; omega
  refine stringBody_escape ?_
  have hassoc : ('u' :: digits ++ '\\' :: 'u' :: digits') ++ rest =
      'u' :: (digits ++ '\\' :: 'u' :: (digits' ++ rest)) := by simp
  rw [hassoc, escapeSequence_u, unicodeEscape, hexUnit_digits h]
  simp [bind, Except.bind, hnotLow, hhigh, lowSurrogate, hexUnit_digits h', hlow,
    length_of_hexNumber? h, length_of_hexNumber? h']

/-! ### The two rules -/

theorem toNat_valid (c : Char) : c.toNat < 0xd800 ∨ (0xdfff < c.toNat ∧ c.toNat < 0x110000) := by
  have hvalid := c.valid
  simp only [UInt32.isValidChar, Nat.isValidChar] at hvalid
  exact hvalid

theorem unescapes_escape : Unescapes escape := by
  intro c read rest
  rw [escape]
  -- seven characters have letters of their own
  iterate 7
    split
    · next h =>
      subst h
      exact stringBody_letter (by decide) read rest
  split
  · next hcontrol =>
    have hunit := stringBody_unit (hexNumber?_unitDigits (by omega : c.toNat < 65536)) (by omega)
      read rest
    rwa [Char.ofNat_toNat] at hunit
  · next hq hb _ _ _ _ _ hcontrol => exact stringBody_plain hq hb hcontrol read rest

/-- The units of a character are read as the character. -/
theorem stringBody_units (c : Char) (read rest : List Char) :
    stringBody read 0 ((utf16Units c).flatMap unitEscape ++ rest) =
      stringBody (c :: read) 0 rest := by
  have hvalid := toNat_valid c
  rw [utf16Units]
  split
  · next h =>
    have hunit := stringBody_unit (hexNumber?_unitDigits h) (by omega) read rest
    rw [Char.ofNat_toNat] at hunit
    simpa [unitEscape_eq] using hunit
  · next h =>
    have hquotient : (c.toNat - 0x10000) / 1024 < 1024 := by omega
    have hremainder : (c.toNat - 0x10000) % 1024 < 1024 := Nat.mod_lt _ (by decide)
    have hhalf : ∀ q < 1024, 0xdc00 + q < 65536 ∧ 0xd800 + q < 65536 := by omega
    have hpair := stringBody_pair (hexNumber?_unitDigits (hhalf _ hquotient).2)
      (hexNumber?_unitDigits (hhalf _ hremainder).1) (by omega) (by omega) read rest
    have hsum : (0xd800 + (c.toNat - 0x10000) / 1024 - 0xd800) * 1024 +
        (0xdc00 + (c.toNat - 0x10000) % 1024 - 0xdc00) + 0x10000 = c.toNat := by omega
    rw [hsum, Char.ofNat_toNat] at hpair
    simpa [unitEscape_eq] using hpair

theorem unescapes_escapeAscii : Unescapes escapeAscii := by
  intro c read rest
  rw [escapeAscii]
  split
  · exact unescapes_escape c read rest
  · exact stringBody_units c read rest

/-- A string is read up to its closing quote. -/
theorem stringRest_quoted {esc : Char → List Char} (h : Unescapes esc) (s : String)
    (rest : List Char) : stringRest (s.toList.flatMap esc ++ '"' :: rest) = .ok (s, rest) := by
  have hbody : ∀ cs read : List Char, stringBody read 0 (cs.flatMap esc ++ '"' :: rest) =
      .ok (cs.reverse ++ read, rest) := by
    intro cs
    induction cs with
    | nil => intro read; simp [stringBody]
    | cons c cs ih =>
      intro read
      rw [List.flatMap_cons, List.append_assoc, h, ih]
      simp
  rw [stringRest, hbody]
  simp [bind, Except.bind]

end NotebookTidy.Json
