import NotebookTidy.Proofs.Json.Fixed
import NotebookTidy.Proofs.Json.Writer

/-! The text of a notebook is its plain layout, in ASCII.

What ASCII asks for can be done to the plain layout of a value afterwards, character by character,
since everything but the contents of strings is ASCII already (`flatMap_escapeBeyond_indented`).

The layout is printable but for its newlines, and there is one of these for each item and each
member, and one for each bracket that closes on a line of its own (`onLines_indented`): strings
have none. -/
namespace NotebookTidy.Json

/-! ### Printable text -/

/-- The characters of ASCII that are no control characters. -/
def Printable (c : Char) : Prop := 0x20 ≤ c.toNat ∧ c.toNat ≤ 0x7e

instance : DecidablePred Printable := fun _ => inferInstanceAs (Decidable (_ ∧ _))

theorem Printable.not_newline {c : Char} (h : Printable c) : c ≠ '\n' := by
  rintro rfl
  exact absurd h (by decide)

theorem printable_of_all {text : List Char} (h : text.all (decide <| Printable ·) = true) :
    ∀ c ∈ text, Printable c := fun c hc => of_decide_eq_true (List.all_eq_true.mp h c hc)

theorem printable_of_inNumber {c : Char} (h : InNumber c) : Printable c := by
  rcases h with h | h
  · rw [isDigit, digit?] at h
    split at h
    · next hdigit =>
      have hlow : 0x30 ≤ c.toNat := hdigit.1
      have hhigh : c.toNat ≤ 0x39 := hdigit.2
      exact ⟨by omega, by omega⟩
    · cases h
  · simp only [List.mem_cons, List.not_mem_nil, or_false] at h
    obtain rfl | rfl | rfl | rfl | rfl := h <;> decide

theorem printable_unitEscape (n : Nat) : ∀ c ∈ unitEscape n, Printable c := by
  have hdigit : ∀ d < 16, Printable (Text.hexDigit d) := by decide
  have hdigits : ∀ c ∈ [n / 4096, n / 256, n / 16, n].map fun q => Text.hexDigit (q % 16),
      Printable c := by
    intro c hc
    obtain ⟨q, _, rfl⟩ := List.mem_map.mp hc
    exact hdigit _ (Nat.mod_lt q (by decide))
  exact List.forall_mem_cons.mpr ⟨by decide, List.forall_mem_cons.mpr ⟨by decide, hdigits⟩⟩

/-- Whatever is escaped is escaped by printable characters. -/
theorem printable_escape {c : Char} (h : c.toNat < 0x7f) : ∀ d ∈ escape c, Printable d := by
  unfold escape
  -- the escapes of one letter
  iterate 7 (split; next => exact printable_of_all rfl)
  split
  · exact printable_unitEscape _
  · exact List.forall_mem_singleton.mpr ⟨by omega, by omega⟩

theorem printable_escapeAscii (c : Char) : ∀ d ∈ escapeAscii c, Printable d := by
  unfold escapeAscii
  split
  · next h => exact printable_escape h
  · intro d hd
    obtain ⟨n, _, hn⟩ := List.mem_flatMap.mp hd
    exact printable_unitEscape n d hn

theorem printable_quoted (s : String) : ∀ c ∈ quoted escapeAscii s, Printable c := by
  refine List.forall_mem_cons.mpr ⟨by decide, List.forall_mem_append.mpr ⟨fun c hc => ?_, ?_⟩⟩
  · obtain ⟨d, _, hd⟩ := List.mem_flatMap.mp hc
    exact printable_escapeAscii d c hd
  · exact List.forall_mem_singleton.mpr (by decide)

/-! ### The plain layout in ASCII -/

theorem flatMap_escapeBeyond_printable {cs : List Char} (h : ∀ c ∈ cs, Printable c) :
    cs.flatMap escapeBeyond = cs :=
  flatMap_escapeBeyond fun c hc => by
    have := (h c hc).2
    omega

theorem flatMap_escapeBeyond_escape (c : Char) :
    (escape c).flatMap escapeBeyond = escapeAscii c := by
  by_cases h : c.toNat < 0x7f
  · rw [flatMap_escapeBeyond_printable (printable_escape h), escapeAscii, if_pos h]
  · have hplain : Writer.needsEscape c = false := by
      simp only [Writer.needsEscape, Bool.or_eq_false_iff, beq_eq_false_iff_ne,
        decide_eq_false_iff_not]
      refine ⟨⟨?_, ?_⟩, by omega⟩ <;> rintro rfl <;> exact h (by decide)
    rw [Writer.escape_of_not_needsEscape hplain, Writer.escapeAscii_of_not_needsEscape hplain,
      List.flatMap_singleton]

theorem flatMap_escapeBeyond_quoted (s : String) :
    (quoted escape s).flatMap escapeBeyond = quoted escapeAscii s := by
  have hquote : escapeBeyond '"' = ['"'] := rfl
  simp only [quoted, List.flatMap_cons, List.flatMap_append, List.flatMap_assoc,
    flatMap_escapeBeyond_escape, hquote, List.flatMap_nil, List.append_nil, List.nil_append,
    List.cons_append]

example : (quoted escape (String.ofList [Char.ofNat 0x1f600, '\x7f'])).flatMap escapeBeyond =
    "\"\\ud83d\\ude00\\u007f\"".toList := by decide

theorem flatMap_escapeBeyond_lineBreak (level : Nat) :
    (lineBreak level).flatMap escapeBeyond = lineBreak level := by
  refine flatMap_escapeBeyond (List.forall_mem_cons.mpr ⟨by decide, fun c hc => ?_⟩)
  rw [List.eq_of_mem_replicate hc]
  decide

theorem flatMap_escapeBeyond_listed (first : Bool) (ps : List (List Char)) :
    (listed first ps).flatMap escapeBeyond =
      listed first (ps.map fun p => p.flatMap escapeBeyond) := by
  induction ps generalizing first with
  | nil => rfl
  | cons p ps ih =>
    have hcomma : (if first then [] else [',']).flatMap escapeBeyond =
        if first then [] else [','] := by cases first <;> rfl
    simp only [listed, List.flatMap_append, hcomma, ih, List.map_cons]

theorem flatMap_escapeBeyond_bracket {α : Type} (level : Nat) (entries : List α)
    {left right : Char} (hleft : left.toNat < 0x7f) (hright : right.toNat < 0x7f)
    (ps : List (List Char)) :
    (left :: (listed true ps ++ (closingBreak level entries ++ [right]))).flatMap escapeBeyond =
      left :: (listed true (ps.map fun p => p.flatMap escapeBeyond) ++
        (closingBreak level entries ++ [right])) := by
  have hbreak : (closingBreak level entries).flatMap escapeBeyond = closingBreak level entries := by
    cases entries with
    | nil => rfl
    | cons => exact flatMap_escapeBeyond_lineBreak level
  have hself : ∀ c : Char, c.toNat < 0x7f → escapeBeyond c = [c] := fun c hc => if_pos hc
  simp only [List.flatMap_cons, List.flatMap_append, flatMap_escapeBeyond_listed, hbreak,
    hself left hleft, hself right hright, List.singleton_append, List.flatMap_nil]

/-- **The layout in ASCII is the plain layout, escaped** character by character. -/
theorem flatMap_escapeBeyond_indented (level : Nat) (v : Value) :
    (indented escape level v).flatMap escapeBeyond = indented escapeAscii level v := by
  induction v using Value.induct generalizing level with
  | null => rfl
  | bool b => cases b <;> rfl
  | number n =>
    exact flatMap_escapeBeyond_printable fun c hc => printable_of_inNumber (inNumber_text n c hc)
  | string s => exact flatMap_escapeBeyond_quoted s
  | array items ih =>
    have hitems : ∀ level, (indentedItems escape level items).map (·.flatMap escapeBeyond) =
        indentedItems escapeAscii level items := by
      intro level
      induction items with
      | nil => rfl
      | cons v vs ihs =>
        obtain ⟨hv, hvs⟩ := List.forall_mem_cons.mp ih
        simp only [indentedItems, List.map_cons, List.flatMap_append,
          flatMap_escapeBeyond_lineBreak, hv, ihs hvs]
    rw [indented_array, indented_array, flatMap_escapeBeyond_bracket _ _ (by decide) (by decide),
      hitems]
  | object ms ih =>
    have hcolon : escapeBeyond ':' = [':'] := rfl
    have hspace : escapeBeyond ' ' = [' '] := rfl
    have hmembers : ∀ level, (indentedMembers escape level ms).map (·.flatMap escapeBeyond) =
        indentedMembers escapeAscii level ms := by
      intro level
      induction ms with
      | nil => rfl
      | cons m ms ihs =>
        obtain ⟨hm, hms⟩ := List.forall_mem_cons.mp ih
        simp only [indentedMembers, List.map_cons, List.flatMap_append, List.flatMap_cons,
          flatMap_escapeBeyond_lineBreak, flatMap_escapeBeyond_quoted, hcolon, hspace, hm,
          ihs hms, List.singleton_append]
    rw [indented_object, indented_object, flatMap_escapeBeyond_bracket _ _ (by decide) (by decide),
      hmembers]

/-! ### Lines -/

mutual
/-- How many lines begin in the layout of a value: one for each item and each member, however
deep, and one for each bracket that is closed on a line of its own. -/
def Value.lineBreaks : Value → Nat
  | .array items => lineBreaksOfItems items + if items.isEmpty then 0 else 1
  | .object ms => lineBreaksOfMembers ms + if ms.isEmpty then 0 else 1
  | _ => 0

def lineBreaksOfItems : List Value → Nat
  | [] => 0
  | v :: vs => 1 + v.lineBreaks + lineBreaksOfItems vs

def lineBreaksOfMembers : List (String × Value) → Nat
  | [] => 0
  | (_, v) :: ms => 1 + v.lineBreaks + lineBreaksOfMembers ms
end

/-- Printable text but for some newlines. -/
structure OnLines (text : List Char) (newlines : Nat) : Prop where
  printable : ∀ c ∈ text, c = '\n' ∨ Printable c
  count : text.count '\n' = newlines

theorem onLines_of_printable {text : List Char} (h : ∀ c ∈ text, Printable c) : OnLines text 0 :=
  ⟨fun c hc => .inr (h c hc), List.count_eq_zero.mpr fun hmem => (h _ hmem).not_newline rfl⟩

theorem OnLines.append {a b : List Char} {m n : Nat} (ha : OnLines a m) (hb : OnLines b n) :
    OnLines (a ++ b) (m + n) :=
  ⟨List.forall_mem_append.mpr ⟨ha.printable, hb.printable⟩,
    by rw [List.count_append, ha.count, hb.count]⟩

theorem onLines_lineBreak (level : Nat) : OnLines (lineBreak level) 1 := by
  have hspaces : ∀ c ∈ List.replicate level ' ', Printable c := by
    intro c hc
    rw [List.eq_of_mem_replicate hc]
    decide
  have hnewline : OnLines ['\n'] 1 := ⟨List.forall_mem_singleton.mpr (.inl rfl), rfl⟩
  exact hnewline.append (onLines_of_printable hspaces)

/-- Entries, each after a comma but the first, and the lines that begin in them. -/
theorem onLines_entry {text rest : List Char} {m n : Nat} (first : Bool) (level : Nat)
    (h : OnLines text m) (hrest : OnLines rest n) :
    OnLines ((if first then [] else [',']) ++ (lineBreak level ++ text ++ rest)) (1 + m + n) := by
  have hcomma : OnLines (if first then [] else [',']) 0 := by
    cases first <;> exact onLines_of_printable (printable_of_all rfl)
  have hentry := hcomma.append (((onLines_lineBreak level).append h).append hrest)
  rwa [Nat.zero_add] at hentry

theorem onLines_bracket {α : Type} {text : List Char} {n : Nat} (h : OnLines text n) (level : Nat)
    (entries : List α) {left right : Char} (hleft : Printable left) (hright : Printable right) :
    OnLines (left :: (text ++ (closingBreak level entries ++ [right])))
      (n + if entries.isEmpty then 0 else 1) := by
  have hopen := onLines_of_printable (List.forall_mem_singleton.mpr hleft)
  have hclose := onLines_of_printable (List.forall_mem_singleton.mpr hright)
  have hbreak : OnLines (closingBreak level entries) (if entries.isEmpty then 0 else 1) := by
    cases entries with
    | nil => exact onLines_of_printable fun _ hc => absurd hc List.not_mem_nil
    | cons => exact onLines_lineBreak level
  have hall := hopen.append (h.append (hbreak.append hclose))
  rwa [Nat.zero_add, Nat.add_zero] at hall

theorem onLines_indented (level : Nat) (v : Value) :
    OnLines (indented escapeAscii level v) v.lineBreaks := by
  induction v using Value.induct generalizing level with
  | null => exact onLines_of_printable (printable_of_all rfl)
  | bool b => cases b <;> exact onLines_of_printable (printable_of_all rfl)
  | number n => exact onLines_of_printable fun c hc => printable_of_inNumber (inNumber_text n c hc)
  | string s => exact onLines_of_printable (printable_quoted s)
  | array items ih =>
    have hitems : ∀ first level, OnLines (listed first (indentedItems escapeAscii level items))
        (lineBreaksOfItems items) := by
      intro first level
      induction items generalizing first with
      | nil => exact onLines_of_printable fun _ hc => absurd hc List.not_mem_nil
      | cons v vs ihs =>
        obtain ⟨hv, hvs⟩ := List.forall_mem_cons.mp ih
        exact onLines_entry first level (hv level) (ihs hvs false)
    rw [indented_array, Value.lineBreaks]
    exact onLines_bracket (hitems true _) level items (by decide) (by decide)
  | object ms ih =>
    have hmembers : ∀ first level, OnLines (listed first (indentedMembers escapeAscii level ms))
        (lineBreaksOfMembers ms) := by
      intro first level
      induction ms generalizing first with
      | nil => exact onLines_of_printable fun _ hc => absurd hc List.not_mem_nil
      | cons m ms ihs =>
        obtain ⟨hm, hms⟩ := List.forall_mem_cons.mp ih
        have hcolon : OnLines [':', ' '] 0 := onLines_of_printable (printable_of_all rfl)
        have hmember := ((onLines_of_printable (printable_quoted m.1)).append hcolon).append (hm level)
        rw [Nat.zero_add] at hmember
        have hentry := onLines_entry first level hmember (ihs hms false)
        simpa [indentedMembers, listed, lineBreaksOfMembers] using hentry
    rw [indented_object, Value.lineBreaks]
    exact onLines_bracket (hmembers true _) level ms (by decide) (by decide)

/-- The bytes of text on lines are the characters. -/
theorem OnLines.bytes {text : List Char} {n : Nat} (h : OnLines text n) :
    ∀ b ∈ Text.encode (String.ofList text), b = 0x0a ∨ 0x20 ≤ b ∧ b ≤ 0x7e := by
  intro b hb
  rw [Text.encode, String.toUTF8_eq_toByteArray, String.toByteArray_ofList, List.utf8Encode,
    List.toList_data_toByteArray] at hb
  obtain ⟨c, hc, hb⟩ := List.mem_flatMap.mp hb
  rcases h.printable c hc with rfl | ⟨hlow, hhigh⟩
  · exact .inl (List.mem_singleton.mp hb)
  · have hone : c.utf8Size = 1 := Char.utf8Size_eq_one_iff.mpr
      (UInt32.le_iff_toNat_le.mpr (Nat.le_trans hhigh (by decide)))
    rw [String.utf8EncodeChar_eq_singleton hone, List.mem_singleton] at hb
    have hb : b.toNat = c.toNat := by
      rw [hb]
      exact (UInt32.toNat_toUInt8 c.val).trans (Nat.mod_eq_of_lt (show c.toNat < 256 by omega))
    refine .inr ⟨UInt8.le_iff_toNat_le.mpr ?_, UInt8.le_iff_toNat_le.mpr ?_⟩
    · exact hb ▸ hlow
    · exact hb ▸ hhigh

end NotebookTidy.Json

namespace NotebookTidy.Notebook
open Json

/-- **A notebook is written as its plain layout, in ASCII**, and a newline at the end: nothing
fails, nothing but printable characters and newlines is written, and the newlines are those of
the layout. -/
theorem written_escapes_layout (v : Value) :
    ∃ text, written v = .ok text ∧
      text.toList = (indented escape 0 v).flatMap escapeBeyond ++ ['\n'] ∧
      (∀ b ∈ Text.encode text, b = 0x0a ∨ 0x20 ≤ b ∧ b ≤ 0x7e) ∧
      text.toList.count '\n' = v.lineBreaks + 1 ∧ ∀ s, '\n' ∉ quoted escapeAscii s := by
  have hlines : OnLines (indented escapeAscii 0 v ++ ['\n']) (v.lineBreaks + 1) :=
    (onLines_indented 0 v).append (onLines_lineBreak 0)
  refine ⟨render v, written_eq v, ?_, hlines.bytes, ?_, fun s hs => ?_⟩
  · rw [render, String.toList_ofList, flatMap_escapeBeyond_indented]
  · rw [render, String.toList_ofList, hlines.count]
  · exact (printable_quoted s _ hs).not_newline rfl

end NotebookTidy.Notebook
