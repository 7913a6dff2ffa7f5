import NotebookTidy.Formatter.Language
import NotebookTidy.Proofs.Agreement
import NotebookTidy.Proofs.Cleaner.Decision

/-! What reaches a formatter.

Cleaning a document depends on a cleaner only through the formatter of the document's own
language, and on that only through what it makes of the code of the code cells; the toolchain
matters to Julia alone. Two cleaners that agree on so much leave the same document and the same
files (`selected_code_decides`). Blank code reaches no program at all: the formatters of both
languages make nothing of it, whatever they run (`trimmed_of_blank`), so that for them it is
enough to agree on code that is not blank. -/
namespace NotebookTidy
open Files Json Attempt

namespace Formatter

theorem trimmed_of_blank (f : Formatter) {code : String} (h : Text.allBlank code = true) :
    trimmed f code = pure "" := by
  unfold trimmed
  rw [if_pos h]

/-- Functions agree on code of which they make the same. -/
theorem agree_ofFunction_iff {f g : String → Except Failure String} {code : String} :
    Agree Eq (ofFunction f code) (ofFunction g code) ↔ f code = g code := by
  constructor
  · intro h
    exact (h ⟨[], []⟩ ⟨[], []⟩ rfl).1
  · intro h t t' ht
    exact ⟨h, ht⟩

end Formatter

namespace Cleaner
open Notebook

/-- The formatters are pipelines of the two languages, over whatever is run in them. -/
structure RunsPipelines (c : Cleaner) : Prop where
  python : ∃ steps mask, c.python = Formatter.python steps mask
  julia : ∃ f, c.julia = Formatter.julia f

/-- Among some files, two cleaners come to the same with a document, and leave the same. -/
structure SameAfter (a b : Cleaner) (document : Value) (t : Tree) : Prop where
  outcome : ((a.cleanDocument document).run t).outcome = ((b.cleanDocument document).run t).outcome
  after : documentAfter document ((a.cleanDocument document).run t).outcome =
    documentAfter document ((b.cleanDocument document).run t).outcome
  files : ((a.cleanDocument document).run t).tree = ((b.cleanDocument document).run t).tree

theorem sameAfter_of_agreeOn {a b : Cleaner} {document : Value}
    (h : AgreeOn Eq (fun _ => True) a b document) (t : Tree) : SameAfter a b document t := by
  obtain ⟨hsame, hfiles⟩ := agree_cleanDocument h t t rfl
  exact ⟨hsame, congrArg (documentAfter document) hsame, hfiles⟩

/-- Formatters that make nothing of blank code agree on all of it. -/
theorem agree_of_not_blank {f g : Formatter} {code : String}
    (h : Text.allBlank code = false → Agree Eq (Formatter.trimmed f code) (Formatter.trimmed g code)) :
    Agree Eq (Formatter.trimmed f code) (Formatter.trimmed g code) := by
  cases hblank : Text.allBlank code with
  | false => exact h hblank
  | true =>
    rw [Formatter.trimmed_of_blank f hblank, Formatter.trimmed_of_blank g hblank]
    exact agree_pure ""

theorem AgreeOn.of_not_blank {a b : Cleaner} {document : Value} (ha : a.RunsPipelines)
    (hb : b.RunsPipelines) (h : AgreeOn Eq (fun code => Text.allBlank code = false) a b document) :
    AgreeOn Eq (fun _ => True) a b document := by
  obtain ⟨⟨steps, mask, hpython⟩, f, hjulia⟩ := ha
  obtain ⟨⟨steps', mask', hpython'⟩, g, hjulia'⟩ := hb
  refine ⟨fun hw code hcode _ => ?_, h.probe, fun hw htrue code hcode _ => ?_⟩
  · have hagree := h.python hw code hcode
    rw [hpython, hpython'] at hagree ⊢
    exact agree_of_not_blank hagree
  · have hagree := h.julia hw htrue code hcode
    rw [hjulia, hjulia'] at hagree ⊢
    exact agree_of_not_blank hagree

/-- **Only the code of code cells, in the document's own language, decides** what comes of a
document, and of that only code that is not blank if the formatters are those of the two
languages. -/
theorem selected_code_decides :
    (∀ (a b : Cleaner) (document : Value), AgreeOn Eq (fun _ => True) a b document →
      ∀ t, SameAfter a b document t) ∧
    (∀ (steps steps' : List Formatter) (mask mask' : Bool) (code : String),
      Text.allBlank code = true →
      Agree Eq (Formatter.python steps mask code) (Formatter.python steps' mask' code)) ∧
    (∀ (f g : Formatter) (code : String), Text.allBlank code = true →
      Agree Eq (Formatter.julia f code) (Formatter.julia g code)) ∧
    ∀ (a b : Cleaner) (document : Value), a.RunsPipelines → b.RunsPipelines →
      AgreeOn Eq (fun code => Text.allBlank code = false) a b document →
      ∀ t, SameAfter a b document t := by
  refine ⟨fun a b document h => sameAfter_of_agreeOn h, fun steps steps' mask mask' code h => ?_,
    fun f g code h => ?_, fun a b document ha hb h => sameAfter_of_agreeOn (h.of_not_blank ha hb)⟩
  · exact agree_of_not_blank fun hnot => absurd h (by rw [hnot]; nofun)
  · exact agree_of_not_blank fun hnot => absurd h (by rw [hnot]; nofun)

/-- A notebook in Python with a title, a line of code, and a cell that is blank. -/
def titledNotebook : Value := pythonNotebook [
  .object [("cell_type", .string "markdown"), ("source", .string "# Title")],
  .object [("cell_type", .string "code"), ("source", .string "x")],
  .object [("cell_type", .string "code"), ("source", .string " \n")]]

theorem codeOf_titledNotebook {code : String} (h : CodeOf titledNotebook code) :
    code = "x" ∨ code = " \n" := by
  obtain ⟨items, cell, hitems, hcell, hcode, rfl⟩ := h
  cases hitems
  simp only [List.mem_cons, List.not_mem_nil, or_false] at hcell
  obtain rfl | rfl | rfl := hcell
  · exact absurd hcode (by decide)
  · exact .inl rfl
  · exact .inr rfl

/-- It does not matter what becomes of a title or of Julia code, nor, in pipelines, of blank
code. -/
theorem selected_code_decides_titled :
    let refuseTitle : String → Except Failure String := fun code =>
      if code = "# Title" then .error (.outputNotText "refuse") else .ok code
    let refuseAll : String → Except Failure String := fun _ => .error (.outputNotText "refuse")
    let a : Cleaner := .ofFunctions .ok .ok false
    let b : Cleaner := ⟨.ofFunction refuseTitle, .ofFunction refuseAll, .fail .toml⟩
    let a' : Cleaner := ⟨.python [] true, .julia (.ofFunction .ok), pure false⟩
    let b' : Cleaner := ⟨.python [.ofFunction refuseTitle] false, .julia (.ofFunction refuseAll),
      .fail .toml⟩
    AgreeOn Eq (fun _ => True) a b titledNotebook ∧ (∀ t, SameAfter a b titledNotebook t) ∧
      Agree Eq (a'.python " \n") (b'.python " \n") ∧ Agree Eq (a'.julia " \n") (b'.julia " \n") ∧
      AgreeOn Eq (fun code => Text.allBlank code = false) a' b' titledNotebook ∧
      ∀ t, SameAfter a' b' titledNotebook t := by
  intro refuseTitle refuseAll a b a' b'
  have hblank : Text.allBlank " \n" = true := by decide
  have hjulia : ¬ WrittenIn titledNotebook juliaName := by
    rintro ⟨metadata, info, hmetadata, hinfo, hname⟩
    cases hmetadata
    cases hinfo
    revert hname
    decide
  have hagree : AgreeOn Eq (fun _ => True) a b titledNotebook := by
    refine ⟨fun _ code hcode _ => ?_, fun h => absurd h hjulia, fun h => absurd h hjulia⟩
    obtain rfl | rfl := codeOf_titledNotebook hcode
    · exact Formatter.agree_ofFunction_iff.mpr rfl
    · exact Formatter.agree_ofFunction_iff.mpr rfl
  have hagree' : AgreeOn Eq (fun code => Text.allBlank code = false) a' b' titledNotebook := by
    refine ⟨fun _ code hcode hnot => ?_, fun h => absurd h hjulia, fun h => absurd h hjulia⟩
    obtain rfl | rfl := codeOf_titledNotebook hcode
    · rintro t _ rfl
      exact ⟨rfl, rfl⟩
    · rw [hblank] at hnot
      cases hnot
  obtain ⟨hall, hpython, hjulia, hpipelines⟩ := selected_code_decides
  exact ⟨hagree, hall a b titledNotebook hagree,
    hpython [] [.ofFunction refuseTitle] true false _ hblank,
    hjulia (.ofFunction .ok) (.ofFunction refuseAll) _ hblank, hagree',
    hpipelines a' b' titledNotebook ⟨⟨_, _, rfl⟩, _, rfl⟩ ⟨⟨_, _, rfl⟩, _, rfl⟩ hagree'⟩

end Cleaner
end NotebookTidy
