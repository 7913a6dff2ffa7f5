import Mathlib.Data.List.DropRight
import NotebookTidy.Json.Skip
import NotebookTidy.Proofs.Json.Grammar

/-! Every JSON text is passed over.

What is passed over need not fit: a number may be of any size, and arrays and objects may be nested
as deep as they like. There is one lemma for each kind of value; those for items and members are runs
over what is left of them. Twice as many calls as the text is long are enough, since each call
that reads nothing comes before one that does (`passed_of_writes`). -/
namespace NotebookTidy.Json

/-! ### Numbers -/

theorem skipDigits_append {ds : List Char} (hds : ∀ c ∈ ds, isDigit c = true) {rest : List Char}
    (hrest : startsWithDigit rest = false) : skipDigits (ds ++ rest) = rest := by
  unfold skipDigits
  rw [List.dropWhile_append_of_pos hds]
  cases rest with
  | nil => rfl
  | cons c s =>
    have hc : isDigit c = false := hrest
    simp [hc]

theorem startsWithDigit_of_digits {ds : List Char} (h : Digits ds) (rest : List Char) :
    startsWithDigit (ds ++ rest) = true := by
  obtain ⟨hne, hds⟩ := h
  cases ds with
  | nil => exact absurd rfl hne
  | cons d ds => exact hds d List.mem_cons_self

theorem skipExponent_of_digits {sign ds rest : List Char}
    (hsign : sign = [] ∨ sign = ['+'] ∨ sign = ['-']) (h : Digits ds)
    (hrest : startsWithDigit rest = false) : skipExponent (sign ++ (ds ++ rest)) = .ok rest := by
  have hstart := startsWithDigit_of_digits h rest
  have hskip := skipDigits_append h.2 hrest
  have hskipped : (if startsWithDigit (ds ++ rest) then .ok (skipDigits (ds ++ rest))
      else .error (Fault.next .invalidNumber (ds ++ rest))) = Except.ok rest := by
    rw [if_pos hstart, hskip]
  obtain rfl | rfl | rfl := hsign
  · -- the digits do not begin with a sign
    have hplus : ∀ s, ds ++ rest ≠ '+' :: s := by
      intro s hs
      rw [hs] at hstart
      exact Bool.false_ne_true hstart
    have hminus : ∀ s, ds ++ rest ≠ '-' :: s := by
      intro s hs
      rw [hs] at hstart
      exact Bool.false_ne_true hstart
    rw [List.nil_append]
    unfold skipExponent
    split
    · next s hs => exact absurd hs (hplus s)
    · next s hs => exact absurd hs (hminus s)
    · exact hskipped
  · exact hskipped
  · exact hskipped

theorem skipNumberEnd_of_exponent {exponent rest : List Char} (h : IsExponent exponent)
    (hrest : EndsNumber rest) : skipNumberEnd (exponent ++ rest) = .ok rest := by
  cases h with
  | none =>
    rw [List.nil_append, skipNumberEnd.eq_def]
    split
    · exact absurd rfl (hrest.ne (by decide))
    · exact absurd rfl (hrest.ne (by decide))
    · rfl
  | @digits e sign ds he hsign hds =>
    have hexponent := skipExponent_of_digits hsign hds (startsWithDigit_of_endsNumber hrest)
    rw [List.cons_append, List.append_assoc]
    obtain rfl | rfl := he <;> exact hexponent

/-- Neither a digit nor a point comes after the digits of a number and its fraction. -/
theorem not_point_of_exponent {exponent rest : List Char} (h : IsExponent exponent)
    (hrest : EndsNumber rest) : startsWithDigit (exponent ++ rest) = false ∧
      ∀ s, exponent ++ rest ≠ '.' :: s := by
  cases h with
  | none =>
    refine ⟨startsWithDigit_of_endsNumber hrest, fun s hs => ?_⟩
    rw [List.nil_append] at hs
    exact absurd rfl ((hs ▸ hrest).ne (by decide))
  | @digits e sign ds he hsign hds =>
    obtain rfl | rfl := he
    · exact ⟨rfl, fun s hs => absurd (List.cons.inj hs).1 (by decide)⟩
    · exact ⟨rfl, fun s hs => absurd (List.cons.inj hs).1 (by decide)⟩

theorem skipAfterInteger_of_fraction {fraction exponent rest : List Char}
    (hfraction : IsFraction fraction) (hexponent : IsExponent exponent) (hrest : EndsNumber rest) :
    skipAfterInteger (fraction ++ (exponent ++ rest)) = .ok rest := by
  obtain ⟨hdigit, hpoint⟩ := not_point_of_exponent hexponent hrest
  have hend := skipNumberEnd_of_exponent hexponent hrest
  cases hfraction with
  | none =>
    rw [List.nil_append, skipAfterInteger.eq_def]
    split
    · next s hs => exact absurd hs (hpoint s)
    · exact hend
  | @digits ds hds =>
    rw [List.cons_append, skipAfterInteger, if_pos (startsWithDigit_of_digits hds _),
      skipDigits_append hds.2 hdigit, hend]

theorem startsWithDigit_after_whole {fraction exponent rest : List Char}
    (hfraction : IsFraction fraction) (hexponent : IsExponent exponent) (hrest : EndsNumber rest) :
    startsWithDigit (fraction ++ (exponent ++ rest)) = false := by
  cases hfraction with
  | none => exact (not_point_of_exponent hexponent hrest).1
  | digits _ => rfl

theorem skipNumber_of_isUnsigned {text rest : List Char} (h : IsUnsigned text)
    (hrest : EndsNumber rest) : skipNumber (text ++ rest) = .ok rest := by
  cases h with
  | mk hwhole hfraction hexponent =>
    have hafter := skipAfterInteger_of_fraction hfraction hexponent hrest
    have hdigit := startsWithDigit_after_whole hfraction hexponent hrest
    simp only [List.append_assoc]
    cases hwhole with
    | zero => simp [skipNumber, hdigit, hafter]
    | digits hfirst hnonzero hothers =>
      rw [List.cons_append, skipNumber, if_neg hnonzero, if_pos hfirst,
        skipDigits_append hothers hdigit, hafter]

theorem IsUnsigned.begins {text : List Char} (h : IsUnsigned text) :
    ∃ d s, text = d :: s ∧ isDigit d = true := by
  cases h with
  | mk hwhole _ _ =>
    cases hwhole with
    | zero => exact ⟨'0', _, rfl, by decide⟩
    | digits hfirst _ _ => exact ⟨_, _, rfl, hfirst⟩

/-! ### Strings -/

/-- What is passed already is left out. -/
theorem skipStringBody_skip (done rest : List Char) :
    skipStringBody done.length (done ++ rest) = skipStringBody 0 rest := by
  induction done with
  | nil => rfl
  | cons c done ih => exact ih

theorem skipStringBody_escape {done rest : List Char}
    (h : skipEscape (done ++ rest) = .ok done.length) :
    skipStringBody 0 ('\\' :: (done ++ rest)) = skipStringBody 0 rest := by
  rw [skipStringBody]
  simp only [h, show ('\\' : Char) ≠ '"' by decide, if_false, if_true]
  exact skipStringBody_skip done rest

theorem skipStringBody_unit {digits : List Char} {n : Nat} (h : hexNumber? digits = some n)
    (rest : List Char) :
    skipStringBody 0 ('\\' :: 'u' :: (digits ++ rest)) = skipStringBody 0 rest := by
  have hescape : skipEscape (('u' :: digits) ++ rest) = .ok ('u' :: digits).length := by
    show (hexUnit (digits ++ rest)).map _ = _
    rw [hexUnit_digits h, List.length_cons, length_of_hexNumber? h]
    rfl
  exact skipStringBody_escape hescape

theorem skipStringBody_of_isLiteral {cs text : List Char} (h : IsLiteral cs text)
    (rest : List Char) : skipStringBody 0 (text ++ '"' :: rest) = .ok rest := by
  induction h with
  | nil => simp [skipStringBody]
  | plain hquote hbackslash hcontrol _ ih =>
    simp [skipStringBody, hquote, hbackslash, hcontrol, ih]
  | @letter letter c cs text hletter _ ih =>
    have hescape : skipEscape ([letter] ++ (text ++ '"' :: rest)) = .ok [letter].length := by
      simp [skipEscape, hletter]
    exact (skipStringBody_escape hescape).trans ih
  | unit hdigits _ _ ih =>
    simp only [List.cons_append, List.append_assoc, skipStringBody_unit hdigits, ih]
  | pair hdigits hdigits' _ _ _ ih =>
    simp only [List.cons_append, List.append_assoc, skipStringBody_unit hdigits,
      skipStringBody_unit hdigits', ih]

/-! ### What a value begins with -/

/-- A value begins with a character that is neither blank nor a closing bracket. -/
theorem Doc.Writes.begins {doc : Doc} {text : List Char} (h : doc.Writes text) :
    ∃ c s, text = c :: s ∧ isSpace c = false ∧ c ≠ ']' := by
  cases h with
  | null => exact ⟨'n', _, rfl, by decide, by decide⟩
  | bool b =>
    cases b
    · exact ⟨'f', _, rfl, by decide, by decide⟩
    · exact ⟨'t', _, rfl, by decide, by decide⟩
  | number h =>
    cases h with
    | unsigned h =>
      obtain ⟨d, s, rfl, hdigit⟩ := h.begins
      exact ⟨d, s, rfl, isSpace_of_isDigit hdigit, ne_of_isDigit hdigit (by decide)⟩
    | negative h => exact ⟨'-', _, rfl, by decide, by decide⟩
  | string _ => exact ⟨'"', _, rfl, by decide, by decide⟩
  | array _ _ _ => exact ⟨'[', _, rfl, by decide, by decide⟩
  | object _ _ _ _ => exact ⟨'{', _, rfl, by decide, by decide⟩

variable {blank rest : List Char}

/-! ### Values without parts -/

theorem skipValue_word (h : Blank blank) (fuel : Nat) {text : List Char}
    (htext : text ∈ [nullText, boolText true, boolText false]) :
    skipValue (fuel + 1) (blank ++ (text ++ rest)) = .ok rest := by
  have htext : text = nullText ∨ text = boolText true ∨ text = boolText false := by simpa using htext
  obtain rfl | rfl | rfl := htext
  all_goals
    simp only [nullText, boolText, List.cons_append, if_true, Bool.false_eq_true, if_false]
    rw [skipValue, skipSpace_blank h (by decide)]
    rfl

theorem skipValue_number (h : Blank blank) (fuel : Nat) {text : List Char} (htext : IsNumber text)
    (hrest : EndsNumber rest) : skipValue (fuel + 1) (blank ++ (text ++ rest)) = .ok rest := by
  cases htext with
  | unsigned hunsigned =>
    have hnumber := skipNumber_of_isUnsigned hunsigned hrest
    obtain ⟨d, s, rfl, hdigit⟩ := hunsigned.begins
    have hn := ne_of_isDigit hdigit (show isDigit 'n' = false by decide)
    have ht := ne_of_isDigit hdigit (show isDigit 't' = false by decide)
    have hf := ne_of_isDigit hdigit (show isDigit 'f' = false by decide)
    have hminus := ne_of_isDigit hdigit (show isDigit '-' = false by decide)
    rw [List.cons_append, skipValue, skipSpace_blank h (isSpace_of_isDigit hdigit)]
    simp only [if_neg hn, if_neg ht, if_neg hf, if_neg hminus, if_pos hdigit]
    exact hnumber
  | negative hunsigned =>
    rw [List.cons_append, skipValue, skipSpace_blank h (by decide)]
    exact skipNumber_of_isUnsigned hunsigned hrest

theorem skipValue_string (h : Blank blank) (fuel : Nat) {cs text : List Char}
    (htext : IsLiteral cs text) :
    skipValue (fuel + 1) (blank ++ ('"' :: (text ++ ['"']) ++ rest)) = .ok rest := by
  rw [List.cons_append, List.append_assoc, List.singleton_append, skipValue,
    skipSpace_blank h (by decide)]
  exact skipStringBody_of_isLiteral htext rest

/-! ### Arrays and objects -/

/-- A text is passed over with twice as many calls as it is long. -/
def Passed (text : List Char) : Prop :=
  ∀ fuel blank rest, 2 * text.length ≤ fuel → Blank blank → EndsNumber rest →
    skipValue fuel (blank ++ (text ++ rest)) = .ok rest

/-- A value that has no parts is passed over in one call. -/
theorem passed_of_succ {doc : Doc} {text : List Char} (hwritten : doc.Writes text)
    (h : ∀ fuel blank rest, Blank blank → EndsNumber rest →
      skipValue (fuel + 1) (blank ++ (text ++ rest)) = .ok rest) : Passed text := by
  intro fuel blank rest hfuel hblank hrest
  obtain _ | fuel := fuel
  · obtain ⟨c, s, rfl, _, _⟩ := hwritten.begins
    cases hfuel
  · exact h fuel blank rest hblank hrest

/-- What comes after an item or a member does not go on with a number. -/
theorem endsNumber_tail {tail : List Char} (htail : Blank tail) (ps : List (List Char))
    (hblank : Blank blank) {close : Char} (hclose : close = ']' ∨ close = '\x7d')
    (rest : List Char) : EndsNumber (tail ++ (listed false ps ++ (blank ++ close :: rest))) := by
  refine endsNumber_blank htail (endsNumber_listed ps (endsNumber_blank hblank ?_))
  obtain rfl | rfl := hclose
  · exact endsNumber_cons (by decide) (by decide) rest
  · exact endsNumber_cons (by decide) (by decide) rest

theorem skipSpace_skipSpace (s : List Char) : skipSpace (skipSpace s) = skipSpace s :=
  List.dropWhile_idempotent isSpace s

theorem colon_blank (h : Blank blank) (s : List Char) : colon (blank ++ ':' :: s) = .ok s := by
  rw [colon, skipSpace_blank h (by decide)]
  rfl

theorem skipKey_of_isLiteral {lead after cs text : List Char} (hlead : Blank lead)
    (htext : IsLiteral cs text) (hafter : Blank after) (s : List Char) :
    skipKey (lead ++ ('"' :: (text ++ ('"' :: (after ++ (':' :: s)))))) = .ok s := by
  rw [skipKey, skipSpace_blank hlead (by decide)]
  simp only [if_true, skipStringBody_of_isLiteral htext, ok_bind, colon_blank hafter]

/-- Blanks before an item or a member make no difference. -/
theorem skipItems_skipSpace (fuel : Nat) (s : List Char) :
    skipItems (fuel + 2) (skipSpace s) = skipItems (fuel + 2) s := by
  rw [skipItems, skipItems, skipValue, skipValue, skipSpace_skipSpace]

theorem skipMembers_skipSpace (fuel : Nat) (s : List Char) :
    skipMembers (fuel + 1) (skipSpace s) = skipMembers (fuel + 1) s := by
  rw [skipMembers, skipMembers, skipKey, skipKey, skipSpace_skipSpace]

/-- The items of an array are passed from one of them on. -/
theorem skipItems_listed {i : Item} {items : List Item} (hspaced : ∀ j ∈ i :: items, j.Spaced)
    (hpassed : ∀ j ∈ i :: items, Passed j.text) (hblank : Blank blank) (rest : List Char) {fuel : Nat}
    (hfuel : 2 * (i.text.length + (listed false (items.map Item.chars)).length) < fuel) :
    skipItems fuel (i.chars ++ (listed false (items.map Item.chars) ++ (blank ++ ']' :: rest))) =
      .ok rest := by
  induction items generalizing i fuel with
  | nil =>
    obtain _ | fuel := fuel
    · cases hfuel
    obtain ⟨hlead, htail⟩ := hspaced i List.mem_cons_self
    have hitem := hpassed i List.mem_cons_self fuel i.lead _ (by omega) hlead
      (endsNumber_tail htail [] hblank (.inl rfl) rest)
    simp only [List.map_nil, Item.chars, List.append_assoc]
    rw [skipItems, hitem, ok_bind, listed, List.nil_append, ← List.append_assoc,
      skipSpace_blank (htail.append hblank) (by decide)]
    rfl
  | cons j items ih =>
    obtain _ | fuel := fuel
    · cases hfuel
    obtain ⟨hi, hothers⟩ := List.forall_mem_cons.mp hpassed
    obtain ⟨⟨hlead, htail⟩, hspaced⟩ := List.forall_mem_cons.mp hspaced
    have hlength : i.text.length + (1 + j.text.length) +
        (listed false (items.map Item.chars)).length ≤
          i.text.length + (listed false ((j :: items).map Item.chars)).length := by
      simp only [List.map_cons, listed, Item.chars, List.length_append, List.length_cons,
        List.length_nil, Bool.false_eq_true, if_false]
      omega
    have hitem := hi fuel i.lead _ (by omega) hlead
      (endsNumber_tail htail ((j :: items).map Item.chars) hblank (.inl rfl) rest)
    rw [Item.chars]
    simp only [List.append_assoc]
    rw [skipItems, hitem, ok_bind, List.map_cons, listed, if_neg (by decide), List.append_assoc,
      List.singleton_append, skipSpace_blank htail (by decide), List.append_assoc]
    exact ih hspaced hothers (by omega)

/-- The members of an object are passed from one of them on. -/
theorem skipMembers_listed {m : Member} {ms : List Member} (hspaced : ∀ n ∈ m :: ms, n.Spaced)
    (hnamed : ∀ n ∈ m :: ms, IsLiteral n.key.toList n.literal)
    (hpassed : ∀ n ∈ m :: ms, Passed n.item.text) (hblank : Blank blank) (rest : List Char)
    {fuel : Nat} (hfuel : 2 * (m.item.text.length + (listed false (ms.map Member.chars)).length) < fuel) :
    skipMembers fuel (m.chars ++ (listed false (ms.map Member.chars) ++ (blank ++ '\x7d' :: rest))) =
      .ok rest := by
  induction ms generalizing m fuel with
  | nil =>
    obtain _ | fuel := fuel
    · cases hfuel
    obtain ⟨hbefore, hafter, hlead, htail⟩ := hspaced m List.mem_cons_self
    have hvalue := hpassed m List.mem_cons_self fuel m.item.lead _ (by omega) hlead
      (endsNumber_tail htail [] hblank (.inr rfl) rest)
    simp only [List.map_nil, Member.chars, Item.chars, List.append_assoc, List.cons_append]
    rw [skipMembers, skipKey_of_isLiteral hbefore (hnamed m List.mem_cons_self) hafter, ok_bind,
      hvalue, ok_bind, listed, List.nil_append, ← List.append_assoc,
      skipSpace_blank (htail.append hblank) (by decide)]
    rfl
  | cons n ms ih =>
    obtain _ | fuel := fuel
    · cases hfuel
    obtain ⟨hm, hothers⟩ := List.forall_mem_cons.mp hpassed
    obtain ⟨⟨hbefore, hafter, hlead, htail⟩, hspaced⟩ := List.forall_mem_cons.mp hspaced
    obtain ⟨hname, hnamed⟩ := List.forall_mem_cons.mp hnamed
    have hlength : m.item.text.length + (1 + n.item.text.length) +
        (listed false (ms.map Member.chars)).length ≤
          m.item.text.length + (listed false ((n :: ms).map Member.chars)).length := by
      simp only [List.map_cons, listed, Member.chars, Item.chars, List.length_append,
        List.length_cons, List.length_nil, Bool.false_eq_true, if_false]
      omega
    have hvalue := hm fuel m.item.lead _ (by omega) hlead
      (endsNumber_tail htail ((n :: ms).map Member.chars) hblank (.inr rfl) rest)
    rw [Member.chars, Item.chars]
    simp only [List.append_assoc, List.cons_append]
    rw [skipMembers, skipKey_of_isLiteral hbefore hname hafter, ok_bind, hvalue, ok_bind,
      List.map_cons, listed, if_neg (by decide), List.append_assoc, List.singleton_append,
      skipSpace_blank htail (by decide), List.append_assoc]
    exact ih hspaced hnamed hothers (by omega)

theorem passed_array {items : List Item} (hspaced : ∀ i ∈ items, i.Spaced)
    (hwritten : ∀ i ∈ items, i.value.Writes i.text) (hpassed : ∀ i ∈ items, Passed i.text)
    (hblank : Blank blank) : Passed (arrayText items blank) := by
  intro fuel lead rest hfuel hlead _
  obtain ⟨fuel, rfl⟩ : ∃ n, fuel = n + 3 := ⟨fuel - 3, by simp [arrayText] at hfuel; omega⟩
  simp only [arrayText, List.cons_append, List.append_assoc, List.nil_append]
  rw [skipValue, skipSpace_blank hlead (by decide)]
  cases items with
  | nil =>
    rw [List.map_nil, listed, List.nil_append]
    simp [isDigit, digit?, skipSpace_blank hblank (show isSpace ']' = false by decide)]
  | cons i items =>
    obtain ⟨c, s, htext, hspace, hclose⟩ := (hwritten i List.mem_cons_self).begins
    have hlead := (hspaced i List.mem_cons_self).lead
    have hitems : skipItems (fuel + 2) (skipSpace (i.chars ++
        (listed false (items.map Item.chars) ++ (blank ++ ']' :: rest)))) = .ok rest := by
      rw [skipItems_skipSpace]
      refine skipItems_listed hspaced hpassed hblank rest ?_
      simp only [arrayText, List.map_cons, listed, Item.chars, List.length_append,
        List.length_cons] at hfuel
      omega
    simp only [Item.chars, htext, List.append_assoc, List.cons_append,
      skipSpace_blank hlead hspace] at hitems
    simp only [List.map_cons, listed, if_true, List.nil_append, Item.chars, htext,
      List.append_assoc, List.cons_append, skipSpace_blank hlead hspace, if_neg hclose]
    exact hitems

theorem passed_object {ms : List Member} (hspaced : ∀ m ∈ ms, m.Spaced)
    (hnamed : ∀ m ∈ ms, IsLiteral m.key.toList m.literal)
    (hpassed : ∀ m ∈ ms, Passed m.item.text) (hblank : Blank blank) :
    Passed (objectText ms blank) := by
  intro fuel lead rest hfuel hlead _
  obtain ⟨fuel, rfl⟩ : ∃ n, fuel = n + 2 := ⟨fuel - 2, by simp [objectText] at hfuel; omega⟩
  simp only [objectText, List.cons_append, List.append_assoc, List.nil_append]
  rw [skipValue, skipSpace_blank hlead (by decide)]
  cases ms with
  | nil =>
    rw [List.map_nil, listed, List.nil_append]
    simp [isDigit, digit?, skipSpace_blank hblank (show isSpace '\x7d' = false by decide)]
  | cons m ms =>
    have hlead := (hspaced m List.mem_cons_self).before
    have hquote : isSpace '"' = false := by decide
    have hmembers : skipMembers (fuel + 1) (skipSpace (m.chars ++
        (listed false (ms.map Member.chars) ++ (blank ++ '\x7d' :: rest)))) = .ok rest := by
      rw [skipMembers_skipSpace]
      refine skipMembers_listed hspaced hnamed hpassed hblank rest ?_
      simp only [objectText, List.map_cons, listed, Member.chars, Item.chars, List.length_append,
        List.length_cons] at hfuel
      omega
    simp only [Member.chars, List.append_assoc, List.cons_append,
      skipSpace_blank hlead hquote] at hmembers
    simp only [List.map_cons, listed, if_true, List.nil_append, Member.chars, List.append_assoc,
      List.cons_append, skipSpace_blank hlead hquote]
    exact hmembers

/-- **Every JSON text is passed over.** -/
theorem passed_of_writes {doc : Doc} {text : List Char} (h : doc.Writes text) : Passed text := by
  induction h with
  | null =>
    refine passed_of_succ .null fun fuel lead rest hlead _ => ?_
    exact skipValue_word hlead fuel (by simp)
  | bool b =>
    refine passed_of_succ (.bool b) fun fuel lead rest hlead _ => ?_
    exact skipValue_word hlead fuel (by cases b <;> simp)
  | number h =>
    exact passed_of_succ (.number h) fun fuel lead rest hlead => skipValue_number hlead fuel h
  | string h =>
    exact passed_of_succ (.string h) fun fuel lead rest hlead _ => skipValue_string hlead fuel h
  | array hspaced hwritten hblank ih => exact passed_array hspaced hwritten ih hblank
  | object hspaced hnamed _ hblank ih => exact passed_object hspaced hnamed ih hblank

end NotebookTidy.Json
