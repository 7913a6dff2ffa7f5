import Mathlib.Data.Set.Function
import NotebookTidy.Proofs.Formatter.Magics

/-! Hiding and showing as inverses.

Neither hiding nor showing makes lines more or fewer (`lineCount_maskMagics`,
`lineCount_unmaskMagics`), and neither concerns the newlines that a text ends in. Hidden code has
no magic, shown code no line that looks like a hidden one (`NoHidden`); and just the texts with no
magic come back when they are shown and hidden again, and just those with no line that looks like
a hidden magic when they are hidden and shown again. So hiding is a bijection from the one kind
of texts to the other, and showing is its inverse (`hiding_and_showing_inverse`). -/
namespace NotebookTidy.Formatter
open Text

/-- Code in which no line looks like a hidden magic. -/
def NoHidden (code : String) : Prop :=
  ∀ line ∈ cutAfterNewlines code.toList, ¬ hiddenMark <+: line

theorem not_hidden_unmaskLine (line : List Char) : ¬ hiddenMark <+: unmaskLine line := by
  rw [unmaskLine]
  split
  · simp [magicMark, hiddenMark]
  · assumption

theorem noHidden_unmaskMagics (code : String) : NoHidden (unmaskMagics code) := by
  rw [NoHidden, unmaskMagics, String.toList_ofList, unmaskFrom_eq]
  exact forall_line_map lineEdit_unmaskLine not_hidden_unmaskLine _

/-- Showing changes nothing but what looks like a hidden magic. -/
theorem unmaskMagics_eq_self_iff (code : String) : unmaskMagics code = code ↔ NoHidden code := by
  rw [NoHidden, ← unmaskFrom_eq_self_iff, unmaskMagics, ← String.toList_inj, String.toList_ofList]

/-! ### The number of lines -/

theorem lineCount_maskMagics (code : String) :
    lineCount (maskMagics code).toList = lineCount code.toList := by
  rw [maskMagics, String.toList_ofList, maskFrom_eq, lineCount_map lineEdit_maskLine]

theorem lineCount_unmaskMagics (code : String) :
    lineCount (unmaskMagics code).toList = lineCount code.toList := by
  rw [unmaskMagics, String.toList_ofList, unmaskFrom_eq, lineCount_map lineEdit_unmaskLine]

/-! ### Inverses -/

theorem unmaskMagics_maskMagics_eq_self_iff (code : String) :
    unmaskMagics (maskMagics code) = code ↔ NoHidden code := by
  rw [unmaskMagics_maskMagics, unmaskMagics_eq_self_iff]

theorem maskMagics_unmaskMagics_eq_self_iff (code : String) :
    maskMagics (unmaskMagics code) = code ↔ NoMagic code := by
  rw [maskMagics_unmaskMagics, maskMagics_eq_self_iff]

theorem invOn_maskMagics :
    Set.InvOn unmaskMagics maskMagics {code | NoHidden code} {code | NoMagic code} :=
  ⟨fun code h => (unmaskMagics_maskMagics_eq_self_iff code).mpr h,
    fun code h => (maskMagics_unmaskMagics_eq_self_iff code).mpr h⟩

/-- **Hiding and showing are inverse on just the texts on which they can be**: the texts without
a line that looks like a hidden magic, and the texts without a magic. They keep the lines apart,
and leave the newlines at the end of a text alone. -/
theorem hiding_and_showing_inverse :
    (∀ code, lineCount (maskMagics code).toList = lineCount code.toList ∧
      NoMagic (maskMagics code)) ∧
    (∀ code, lineCount (unmaskMagics code).toList = lineCount code.toList ∧
      NoHidden (unmaskMagics code)) ∧
    (∀ code, unmaskMagics (maskMagics code) = code ↔ NoHidden code) ∧
    (∀ code, maskMagics (unmaskMagics code) = code ↔ NoMagic code) ∧
    Set.BijOn maskMagics {code | NoHidden code} {code | NoMagic code} ∧
    Set.BijOn unmaskMagics {code | NoMagic code} {code | NoHidden code} ∧
    Set.InvOn unmaskMagics maskMagics {code | NoHidden code} {code | NoMagic code} ∧
    (∀ code, trimEndNewlines (maskMagics code) = maskMagics (trimEndNewlines code)) ∧
    ∀ code, trimEndNewlines (unmaskMagics code) = unmaskMagics (trimEndNewlines code) := by
  have hhiding : Set.MapsTo maskMagics {code | NoHidden code} {code | NoMagic code} :=
    fun code _ => noMagic_maskMagics code
  have hshowing : Set.MapsTo unmaskMagics {code | NoMagic code} {code | NoHidden code} :=
    fun code _ => noHidden_unmaskMagics code
  refine ⟨fun code => ⟨lineCount_maskMagics code, noMagic_maskMagics code⟩,
    fun code => ⟨lineCount_unmaskMagics code, noHidden_unmaskMagics code⟩,
    unmaskMagics_maskMagics_eq_self_iff, maskMagics_unmaskMagics_eq_self_iff, ?_, ?_,
    invOn_maskMagics, trimEndNewlines_maskMagics, trimEndNewlines_unmaskMagics⟩
  · exact invOn_maskMagics.bijOn hhiding hshowing
  · exact invOn_maskMagics.symm.bijOn hshowing hhiding

/-- Only the first mark of a line is hidden or shown. -/
example : maskMagics "%##%x\n\n% y" = "##%##%x\n\n##% y" ∧
    unmaskMagics "##%##%x\n\n##% y" = "%##%x\n\n% y" := by decide +kernel

end NotebookTidy.Formatter
