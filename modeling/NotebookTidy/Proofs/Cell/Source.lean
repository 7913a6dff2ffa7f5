import NotebookTidy.Cell.Source
import NotebookTidy.Proofs.Text.Lines

/-! Sources, split and joined.

Code that is not empty splits into lines that join to the code again (`lines_of_splitSource`,
`joinSource_lines`), and into no other lines (`splitSource_eq_some_iff`); so splitting and joining
undo each other, and what is no line of a source is left out (`split_and_join`). If code does not
end in a newline, none of its lines is empty, and the source that they make up is canonical
(`canonical_lines`). -/
namespace NotebookTidy.Cell
open Json

theorem splitSource_eq_none_iff (text : String) : splitSource text = none ↔ text = "" := by
  rw [splitSource]
  by_cases h : text.toList = []
  · simp [String.toList_eq_nil_iff.mp h]
  · have hne : text ≠ "" := fun he => h (by rw [he]; rfl)
    simp [h, hne]

theorem lines_of_splitSource {text : String} {lines : List String}
    (h : splitSource text = some lines) :
    lines ≠ [] ∧ Text.InLines (lines.map String.toList) ∧ String.join lines = text ∧ text ≠ "" := by
  have hne : text ≠ "" := by
    intro he
    rw [(splitSource_eq_none_iff text).mpr he] at h
    cases h
  rw [splitSource] at h
  split at h
  · cases h
  · cases h
    have htoList : ((Text.cutAfterNewlines text.toList).map String.ofList).map String.toList =
        Text.cutAfterNewlines text.toList := by simp
    refine ⟨by simpa using Text.cutAfterNewlines_ne_nil text.toList, ?_, ?_, hne⟩
    · rw [htoList]
      exact Text.inLines_cutAfterNewlines text.toList
    · rw [← String.toList_inj, String.toList_join, List.flatMap_def, htoList,
        Text.flatten_cutAfterNewlines]

theorem joinSource_lines (lines : List String) :
    joinSource (.array (lines.map .string)) = String.join lines := by
  have hstrings : (lines.map Value.string).filterMap Value.string? = lines := by
    rw [List.filterMap_map]
    exact List.filterMap_some
  rw [joinSource, hstrings, ← String.toList_inj, String.toList_ofList, String.toList_join]

/-! ### The lines of a text -/

/-- Every line but the last ends in its only newline, the last holds none, and together they are
the text. -/
structure LinesOf (text : String) (lines : List String) : Prop where
  ended : ∀ line ∈ lines.dropLast, ∃ body, '\n' ∉ body ∧ line.toList = body ++ ['\n']
  last : ∀ line ∈ lines.getLast?, '\n' ∉ line.toList
  joined : String.join lines = text

theorem linesOf_iff {text : String} {lines : List String} (hne : lines ≠ []) :
    LinesOf text lines ↔ Text.InLines (lines.map String.toList) ∧ String.join lines = text := by
  have hin : Text.InLines (lines.map String.toList) ↔
      (∀ line ∈ lines.dropLast, ∃ body, '\n' ∉ body ∧ line.toList = body ++ ['\n']) ∧
        ∀ line ∈ lines.getLast?, '\n' ∉ line.toList := by
    rw [Text.inLines_iff]
    simp [hne, ← List.map_dropLast]
  rw [hin]
  exact ⟨fun ⟨hended, hlast, hjoin⟩ => ⟨⟨hended, hlast⟩, hjoin⟩,
    fun ⟨⟨hended, hlast⟩, hjoin⟩ => ⟨hended, hlast, hjoin⟩⟩

/-- Code splits into its lines. -/
theorem splitSource_eq_some_iff {text : String} {lines : List String} :
    splitSource text = some lines ↔ text ≠ "" ∧ LinesOf text lines := by
  constructor
  · intro h
    obtain ⟨hne, hin, hjoin, htext⟩ := lines_of_splitSource h
    exact ⟨htext, (linesOf_iff hne).mpr ⟨hin, hjoin⟩⟩
  · rintro ⟨htext, h⟩
    have hne : lines ≠ [] := by
      rintro rfl
      exact htext h.joined.symm
    obtain ⟨hin, hjoin⟩ := (linesOf_iff hne).mp h
    have hflatten : text.toList = (lines.map String.toList).flatten := by
      rw [← hjoin, String.toList_join, List.flatMap_def]
    have hnil : text.toList ≠ [] := fun hnil => htext (String.toList_eq_nil_iff.mp hnil)
    rw [splitSource, if_neg hnil, hflatten, Text.cutAfterNewlines_flatten hin]
    simp

/-! ### Sources that are lists -/

/-- What is no text counts for nothing. -/
theorem joinSource_filter (items : List Value) :
    joinSource (.array (items.filter fun item => item.string?.isSome)) =
      joinSource (.array items) := by
  rw [joinSource, joinSource, List.filterMap_filter]
  congr 3
  funext item
  cases h : item.string? <;> simp

theorem joinSource_append (items items' : List Value) :
    joinSource (.array (items ++ items')) =
      joinSource (.array items) ++ joinSource (.array items') := by
  rw [← String.toList_inj, String.toList_append]
  simp [joinSource]

/-- **Splitting and joining undo each other**, and the lines that code is split into are its only
lines; of a list, joining takes the texts, one after the other. -/
theorem split_and_join :
    (∀ text, splitSource text = none ↔ text = "") ∧
    (∀ text, text ≠ "" → ∃ lines, splitSource text = some lines ∧ LinesOf text lines ∧
      (∀ others, LinesOf text others → others = lines) ∧
      joinSource (.array (lines.map .string)) = text) ∧
    (∀ lines, LinesOf (String.join lines) lines → String.join lines ≠ "" →
      splitSource (joinSource (.array (lines.map .string))) = some lines) ∧
    (∀ items, joinSource (.array items) =
      joinSource (.array (items.filter fun item => item.string?.isSome))) ∧
    ∀ items items', joinSource (.array (items ++ items')) =
      joinSource (.array items) ++ joinSource (.array items') := by
  refine ⟨splitSource_eq_none_iff, fun text htext => ?_, fun lines h hne => ?_,
    fun items => (joinSource_filter items).symm, joinSource_append⟩
  · obtain ⟨lines, hlines⟩ := Option.ne_none_iff_exists'.mp
      fun hnone => htext ((splitSource_eq_none_iff text).mp hnone)
    obtain ⟨_, hof⟩ := splitSource_eq_some_iff.mp hlines
    refine ⟨lines, hlines, hof, fun others hothers => ?_, ?_⟩
    · have hsame := splitSource_eq_some_iff.mpr ⟨htext, hothers⟩
      exact Option.some.inj (hsame.symm.trans hlines)
    · rw [joinSource_lines, hof.joined]
  · rw [joinSource_lines]
    exact splitSource_eq_some_iff.mpr ⟨hne, h⟩

/-- Lines of which the first and the last are empty. -/
theorem split_and_join_blank_lines :
    splitSource "\n\na\n" = some ["\n", "\n", "a\n", ""] ∧
      joinSource (.array (["\n", "\n", "a\n", ""].map .string)) = "\n\na\n" ∧
      LinesOf "\n\na\n" ["\n", "\n", "a\n", ""] ∧
      splitSource (joinSource (.array (["\n", "\n", "a\n", ""].map .string))) =
        some ["\n", "\n", "a\n", ""] := by
  have hsplit : splitSource "\n\na\n" = some ["\n", "\n", "a\n", ""] := by decide +kernel
  have htext : "\n\na\n" ≠ "" := by decide
  have hjoin : String.join ["\n", "\n", "a\n", ""] = "\n\na\n" := by decide +kernel
  obtain ⟨_, hlines, hagain, _, _⟩ := split_and_join
  obtain ⟨lines, hof, hlinesOf, _, hback⟩ := hlines "\n\na\n" htext
  obtain rfl := Option.some.inj (hsplit.symm.trans hof)
  exact ⟨hsplit, hback, hlinesOf, hagain _ (hjoin ▸ hlinesOf) (hjoin ▸ htext)⟩

/-! ### Canonical sources -/

/-- A source that is the list of the lines of its own text, every one but the last with its newline,
and the last one with something else. -/
def Canonical (source : Value) : Prop :=
  ∃ lines : List String, source = .array (lines.map .string) ∧
    splitSource (joinSource source) = some lines ∧ Text.InLines (lines.map String.toList) ∧
    ∀ line ∈ lines, line ≠ ""

/-- Code that does not end in a newline has a canonical source. -/
theorem canonical_lines {text : String} {lines : List String}
    (h : splitSource text = some lines) (hlast : text.toList.getLast? ≠ some '\n') :
    Canonical (.array (lines.map .string)) := by
  obtain ⟨_, hin, hjoin, hne⟩ := lines_of_splitSource h
  have hflatten : (lines.map String.toList).flatten = text.toList := by
    rw [← List.flatMap_def, ← String.toList_join, hjoin]
  refine ⟨lines, rfl, ?_, hin, fun line hline hempty => ?_⟩
  · rw [joinSource_lines, hjoin, h]
  · have hnil : text.toList ≠ [] := fun he => hne (String.toList_eq_nil_iff.mp he)
    rw [← hflatten] at hlast hnil
    exact hin.ne_nil hnil hlast _ (List.mem_map_of_mem hline) (by rw [hempty]; rfl)

end NotebookTidy.Cell
