import Mathlib.Data.List.Basic
import NotebookTidy.Notebook
import NotebookTidy.Proofs.Json.Layout
import NotebookTidy.Proofs.Json.Parts

/-! What a writer writes.

The loop over a fragment has written all that comes before the byte `start`, and the characters
from there to `index` stand for themselves (`writeFragmentFrom_eq`); so a fragment comes out with
nothing escaped but what is not ASCII. Between the fragments of a string stand the escapes that
every JSON text has, and together these are the string in quotes (`writeString_eq`).

A bracket opens a level and closes it again, so a value is written as it is laid out at the level
that the writer is at, and the writer is at that level once more (`lays`). What is written is the
text of the notebook, and never fails to be one (`Notebook.written_eq`). -/
namespace NotebookTidy.Json

/-- A character as ASCII: from U+007F on, the escapes of its UTF-16 units. -/
def escapeBeyond (c : Char) : List Char :=
  if c.toNat < 0x7f then [c] else (utf16Units c).flatMap unitEscape

theorem flatMap_escapeBeyond {cs : List Char} (h : ∀ c ∈ cs, c.toNat < 0x7f) :
    cs.flatMap escapeBeyond = cs := by
  induction cs with
  | nil => rfl
  | cons c cs ih =>
    obtain ⟨hc, hcs⟩ := List.forall_mem_cons.mp h
    rw [List.flatMap_cons, ih hcs, escapeBeyond, if_pos hc, List.singleton_append]

namespace Writer

/-! ### Writing one thing after another -/

@[simp] theorem writeBytes_writeBytes (w : Writer) (a b : ByteArray) :
    (w.writeBytes a).writeBytes b = w.writeBytes (a ++ b) := by
  rw [writeBytes, writeBytes, writeBytes, ByteArray.append_assoc]

theorem write_eq (w : Writer) (text : List Char) : w.write text = w.writeBytes text.utf8Encode := by
  rw [write, String.toUTF8_eq_toByteArray, String.toByteArray_ofList]

@[simp] theorem write_write (w : Writer) (a b : List Char) :
    (w.write a).write b = w.write (a ++ b) := by
  rw [write_eq, write_eq, write_eq, writeBytes_writeBytes, List.utf8Encode_append]

/-! ### Strings -/

/-- The bytes of the characters that stand between others. -/
theorem extract_utf8Encode (before between after : List Char) :
    (before ++ between ++ after).utf8Encode.extract before.utf8Encode.size
      (before ++ between).utf8Encode.size = between.utf8Encode := by
  rw [List.append_assoc, List.utf8Encode_append, List.utf8Encode_append, List.utf8Encode_append,
    ByteArray.size_append, ← ByteArray.append_assoc]
  rw [ByteArray.extract_append, ByteArray.extract_append_eq_right rfl rfl]
  simp

theorem size_utf8Encode_concat (cs : List Char) (c : Char) :
    (cs ++ [c]).utf8Encode.size = cs.utf8Encode.size + c.utf8Size := by
  rw [List.utf8Encode_append, ByteArray.size_append, List.utf8Encode_singleton,
    List.size_toByteArray, String.length_utf8EncodeChar]

/-- The loop over a fragment: `copied` was written, `passed` stands for itself and is still to be
written, and `rest` is still to be looked at. -/
theorem writeFragmentFrom_eq (w : Writer) (copied passed rest : List Char)
    (hpassed : ∀ c ∈ passed, c.toNat < 0x7f) :
    writeFragmentFrom (copied ++ passed ++ rest).utf8Encode w copied.utf8Encode.size
      (copied ++ passed).utf8Encode.size rest = w.write ((passed ++ rest).flatMap escapeBeyond) := by
  induction rest generalizing w copied passed with
  | nil =>
    have hslice := extract_utf8Encode copied passed []
    rw [List.append_nil] at hslice ⊢
    rw [writeFragmentFrom, hslice, List.append_nil, flatMap_escapeBeyond hpassed, write_eq]
  | cons c rest ih =>
    rw [writeFragmentFrom]
    dsimp only
    rw [← size_utf8Encode_concat]
    by_cases hc : c.toNat < 0x7f
    · have hlater : ∀ d ∈ passed ++ [c], d.toNat < 0x7f :=
        List.forall_mem_append.mpr ⟨hpassed, List.forall_mem_singleton.mpr hc⟩
      rw [if_pos hc]
      simpa using ih w copied (passed ++ [c]) hlater
    · -- what was passed is copied before the escape, and nothing is passed after it yet
      have hnext := ih ((w.write passed).write (escapeBeyond c)) (copied ++ passed ++ [c]) []
        fun _ h => absurd h List.not_mem_nil
      rw [if_neg hc, extract_utf8Encode, ← write_eq]
      have hescape : escapeBeyond c = (utf16Units c).flatMap unitEscape := if_neg hc
      rw [← hescape]
      simpa [flatMap_escapeBeyond hpassed] using hnext

theorem writeFragment_eq (w : Writer) (text : List Char) :
    w.writeFragment text = w.write (text.flatMap escapeBeyond) := by
  rw [writeFragment, String.toUTF8_eq_toByteArray, String.toByteArray_ofList]
  exact writeFragmentFrom_eq w [] [] text fun _ h => absurd h List.not_mem_nil

/-- What is written for a piece of a string. -/
def Piece.text : Piece → List Char
  | .fragment text => text.flatMap escapeBeyond
  | .escaped c => escape c

theorem writePiece_eq (w : Writer) (p : Piece) : w.writePiece p = w.write p.text := by
  cases p with
  | fragment text => exact writeFragment_eq w text
  | escaped c => rfl

theorem foldl_writePiece (w : Writer) (ps : List Piece) :
    ps.foldl writePiece w = w.write (ps.flatMap Piece.text) := by
  induction ps generalizing w with
  | nil => simp [write_eq, writeBytes]
  | cons p ps ih => rw [List.foldl_cons, ih, writePiece_eq, write_write, List.flatMap_cons]

/-! The characters of a string are escaped once: those that every JSON text escapes are ASCII. -/

theorem escapeAscii_of_needsEscape {c : Char} (h : needsEscape c = true) :
    escapeAscii c = escape c := by
  have hlow : c.toNat < 0x7f := by
    simp only [needsEscape, Bool.or_eq_true, beq_iff_eq, decide_eq_true_eq] at h
    obtain (rfl | rfl) | h := h
    · decide
    · decide
    · omega
  exact if_pos hlow

theorem escape_of_not_needsEscape {c : Char} (h : needsEscape c = false) : escape c = [c] := by
  simp only [needsEscape, Bool.or_eq_false_iff, beq_eq_false_iff_ne, decide_eq_false_iff_not] at h
  obtain ⟨⟨hquote, hslash⟩, hcontrol⟩ := h
  have hne : ∀ d : Char, d.toNat < 0x20 → c ≠ d := by
    rintro d hd rfl
    exact hcontrol hd
  rw [escape, if_neg hquote, if_neg hslash, if_neg (hne _ (by decide)), if_neg (hne _ (by decide)),
    if_neg (hne _ (by decide)), if_neg (hne _ (by decide)), if_neg (hne _ (by decide)),
    if_neg hcontrol]

theorem escapeAscii_of_not_needsEscape {c : Char} (h : needsEscape c = false) :
    escapeAscii c = escapeBeyond c := by
  rw [escapeAscii, escape_of_not_needsEscape h, escapeBeyond]

theorem flatMap_text_pieces (cs : List Char) :
    (pieces cs).flatMap Piece.text = cs.flatMap escapeAscii := by
  induction cs with
  | nil => rfl
  | cons c cs ih =>
    rw [pieces, List.flatMap_cons, ← ih]
    cases hc : needsEscape c with
    | true =>
      rw [if_pos rfl, List.flatMap_cons, Piece.text, escapeAscii_of_needsEscape hc]
    | false =>
      rw [if_neg (by decide), escapeAscii_of_not_needsEscape hc]
      split
      · next text ps hpieces => simp [hpieces, Piece.text]
      · next ps _ => simp [Piece.text]

theorem writeString_eq (w : Writer) (s : String) :
    w.writeString s = w.write (quoted escapeAscii s) := by
  rw [writeString, foldl_writePiece, flatMap_text_pieces, write_write, write_write, quoted,
    List.singleton_append, List.cons_append]

/-! ### Values -/

/-- A writer before and after some text, at the same level. -/
structure Wrote (w : Writer) (text : List Char) (after : Writer) : Prop where
  output : after.output = w.output ++ text.utf8Encode
  level : after.level = w.level

theorem wrote_write (w : Writer) (text : List Char) : Wrote w text (w.write text) := by
  rw [write_eq]
  exact ⟨rfl, rfl⟩

theorem Wrote.trans {w between after : Writer} {a b : List Char} (h : Wrote w a between)
    (h' : Wrote between b after) : Wrote w (a ++ b) after := by
  refine ⟨?_, h'.level.trans h.level⟩
  rw [h'.output, h.output, List.utf8Encode_append, ByteArray.append_assoc]

theorem Wrote.endEntry {w after : Writer} {text : List Char} (h : Wrote w text after) :
    Wrote w text after.endEntry := ⟨h.output, h.level⟩

theorem wrote_beginEntry (w : Writer) (first : Bool) :
    Wrote w ((if first then [] else [',']) ++ lineBreak w.level) (w.beginEntry first) := by
  rw [beginEntry, write_write]
  cases first <;> exact wrote_write w _

/-- What stands in a bracket, and the bracket around it. -/
theorem wrote_bracket {α : Type} {w inside : Writer} {text : List Char} {entries : List α}
    {left : Char} (h : Wrote (w.openBracket left) text inside)
    (hentry : inside.hasEntry = !entries.isEmpty) (right : Char) :
    Wrote w (left :: (text ++ (closingBreak w.level entries ++ [right])))
      (inside.closeBracket right) := by
  have hopen : (w.openBracket left).output = w.output ++ [left].utf8Encode := by
    rw [openBracket, write_eq]
    rfl
  have hlevel : inside.level - 1 = w.level := by
    rw [h.level]
    rfl
  have hclose : inside.closeBracket right =
      { inside with level := w.level }.write (closingBreak w.level entries ++ [right]) := by
    rw [closeBracket]
    simp only [hlevel, hentry]
    cases entries with
    | nil => rfl
    | cons => simp [closingBreak, lineBreak]
  have hbytes : ∀ closing : List Char, (left :: (text ++ closing)).utf8Encode =
      [left].utf8Encode ++ (text.utf8Encode ++ closing.utf8Encode) := by
    intro closing
    rw [List.utf8Encode_cons, List.utf8Encode_append]
  rw [hclose, write_eq]
  refine ⟨?_, rfl⟩
  rw [hbytes, writeBytes, h.output, hopen, ByteArray.append_assoc, ByteArray.append_assoc]

/-- A value is written as it is laid out at the level of the writer. -/
def Lays (v : Value) : Prop :=
  ∀ w : Writer, Wrote w (indented escapeAscii w.level v) (w.writeValue v)

theorem hasEntry_writeItems (w : Writer) (first : Bool) (items : List Value) :
    (w.writeItems first items).hasEntry = (w.hasEntry || !items.isEmpty) := by
  induction items generalizing w first with
  | nil => simp [writeItems]
  | cons v vs ih => simp [writeItems, ih, endEntry]

theorem hasEntry_writeMembers (w : Writer) (first : Bool) (ms : List (String × Value)) :
    (w.writeMembers first ms).hasEntry = (w.hasEntry || !ms.isEmpty) := by
  induction ms generalizing w first with
  | nil => simp [writeMembers]
  | cons m ms ih => simp [writeMembers, ih, endEntry]

theorem wrote_items {items : List Value} (h : ∀ v ∈ items, Lays v) (w : Writer) (first : Bool) :
    Wrote w (listed first (indentedItems escapeAscii w.level items)) (w.writeItems first items) := by
  induction items generalizing w first with
  | nil => exact ⟨by simp [indentedItems, listed, writeItems], rfl⟩
  | cons v vs ih =>
    obtain ⟨hv, hvs⟩ := List.forall_mem_cons.mp h
    have hbegin := wrote_beginEntry w first
    have hentry := (hbegin.trans (hv _)).endEntry
    have hrest := hentry.trans (ih hvs _ false)
    rw [hentry.level, hbegin.level] at hrest
    simpa [indentedItems, listed, writeItems] using hrest

theorem wrote_members {ms : List (String × Value)} (h : ∀ m ∈ ms, Lays m.2) (w : Writer)
    (first : Bool) : Wrote w (listed first (indentedMembers escapeAscii w.level ms))
      (w.writeMembers first ms) := by
  induction ms generalizing w first with
  | nil => exact ⟨by simp [indentedMembers, listed, writeMembers], rfl⟩
  | cons m ms ih =>
    obtain ⟨hm, hms⟩ := List.forall_mem_cons.mp h
    have hkey : Wrote w ((if first then [] else [',']) ++ lineBreak w.level ++
        (quoted escapeAscii m.1 ++ [':', ' '])) ((w.beginEntry first).writeString m.1).writeColon := by
      rw [writeString_eq, writeColon, write_write]
      exact (wrote_beginEntry w first).trans (wrote_write _ _)
    have hentry := (hkey.trans (hm _)).endEntry
    have hrest := hentry.trans (ih hms _ false)
    rw [hentry.level, hkey.level] at hrest
    simpa [indentedMembers, listed, writeMembers] using hrest

theorem lays (v : Value) : Lays v := by
  induction v using Value.induct with
  | null => exact fun w => wrote_write w _
  | bool b => exact fun w => wrote_write w _
  | number n => exact fun w => wrote_write w _
  | string s =>
    intro w
    rw [writeValue, writeString_eq]
    exact wrote_write w _
  | array items ih =>
    intro w
    rw [writeValue, indented_array]
    exact wrote_bracket (wrote_items ih _ true) (hasEntry_writeItems _ _ _) ']'
  | object ms ih =>
    intro w
    rw [writeValue, indented_object]
    exact wrote_bracket (wrote_members ih _ true) (hasEntry_writeMembers _ _ _) '}'

end Writer
end NotebookTidy.Json

namespace NotebookTidy.Notebook
open Json

/-- What is written is the text of the notebook. -/
theorem written_eq (v : Value) : written v = .ok (render v) := by
  have houtput : ((Writer.start.writeValue v).write ['\n']).output = (render v).toUTF8 := by
    rw [((Writer.lays v Writer.start).trans (Writer.wrote_write _ ['\n'])).output, render,
      String.toUTF8_eq_toByteArray, String.toByteArray_ofList]
    exact ByteArray.empty_append
  rw [written, houtput, ← Text.encode, Text.decode?_encode]

end NotebookTidy.Notebook
