import NotebookTidy.Proofs.Cleaner.Result
import NotebookTidy.Proofs.Job.Effect

/-! Two attempts side by side.

Two attempts agree over a relation on files when, started on files that are related, they come
to the same and leave files that are related (`Attempt.Agree`); what they tell may differ.
Attempts made of such attempts agree too (`Agree.bind`), and so do two visits of cells if the
formatters agree on the code of each cell that holds code, whatever they do with any other text
(`Tally.agree_visitAll`). So two cleaners agree on a document as soon as those of their parts do
that the document selects, on its code (`Cleaner.agree_cleanDocument`). A cleaner that computes
and keeps files agrees with itself over every relation (`Cleaner.agree_cleanText`). -/
namespace NotebookTidy
open Files Json

namespace Attempt
variable {α β : Type} {R : Tree → Tree → Prop} {x y : Attempt α}

variable (R) in
/-- From related files two attempts come to the same, and to related files. -/
def Agree (x y : Attempt α) : Prop :=
  ∀ t t', R t t' → (x.run t).outcome = (y.run t').outcome ∧ R (x.run t).tree (y.run t').tree

theorem agree_of (o : Except Failure α) : Agree R (of o) (of o) := fun _ _ h => ⟨rfl, h⟩

theorem agree_pure (a : α) : Agree R (pure a : Attempt α) (pure a) := fun _ _ h => ⟨rfl, h⟩

/-- It does not matter what is told. -/
theorem agree_tell (e e' : Event) : Agree R (tell e) (tell e') := fun _ _ h => ⟨rfl, h⟩

theorem Agree.caught (h : Agree R x y) : Agree R x.caught y.caught := by
  intro t t' ht
  obtain ⟨hsame, htrees⟩ := h t t' ht
  exact ⟨congrArg Except.ok hsame, htrees⟩

/-- What comes after has to agree on what the first attempt may come to. -/
theorem Agree.bind_of (hxy : Agree R x y) {f g : α → Attempt β}
    (hfg : ∀ a, (∃ t, (x.run t).outcome = .ok a) → Agree R (f a) (g a)) :
    Agree R (x >>= f) (y >>= g) := by
  intro t t' ht
  obtain ⟨hsame, htrees⟩ := hxy t t' ht
  cases hx : (x.run t).outcome with
  | error e =>
    have hy : (y.run t').outcome = .error e := hsame.symm.trans hx
    rw [run_bind_of_error hx, run_bind_of_error hy]
    exact ⟨rfl, htrees⟩
  | ok a =>
    have hy : (y.run t').outcome = .ok a := hsame.symm.trans hx
    rw [run_bind_of_ok hx, run_bind_of_ok hy]
    exact hfg a ⟨t, hx⟩ _ _ htrees

theorem Agree.bind (hxy : Agree R x y) {f g : α → Attempt β} (hfg : ∀ a, Agree R (f a) (g a)) :
    Agree R (x >>= f) (y >>= g) := hxy.bind_of fun a _ => hfg a

/-- An attempt that comes to the same among any files, and keeps them, agrees with itself. -/
theorem KeepsFiles.agree (h : x.KeepsFiles)
    (hsame : ∀ t t', (x.run t).outcome = (x.run t').outcome) : Agree R x x := by
  intro t t' ht
  rw [h t, h t']
  exact ⟨hsame t t', ht⟩

end Attempt

variable {R : Tree → Tree → Prop}
open Attempt

/-! ### Cells -/

/-- Nothing but the code of a cell that holds code reaches a formatter. -/
theorem Cell.agree_tidy {φ ψ : Formatter} {cell : Value}
    (h : HoldsCode cell → Agree R (φ (code cell)) (ψ (code cell))) :
    Agree R (Cell.tidy (some φ) cell) (Cell.tidy (some ψ) cell) := by
  cases cell with
  | object ms =>
    cases hs : (Cell.strip ms).get? "cell_type" with
    | none =>
      simp only [Cell.tidy, hs]
      exact agree_of _
    | some cellType =>
      simp only [Cell.tidy, hs]
      split
      · next hcode =>
        rw [isCode_iff] at hcode
        rw [get?_strip_cellType, hcode] at hs
        rw [get?_strip_source]
        exact .bind (.bind (h hs) fun _ => agree_pure _) fun _ => agree_pure _
      · exact agree_pure _
  | _ => exact agree_of _

namespace Tally

theorem agree_visit {φ ψ : Formatter} {cell : Value}
    (h : Cell.HoldsCode cell → Agree R (φ (Cell.code cell)) (ψ (Cell.code cell)))
    (tally : Tally) : Agree R (tally.visit (some φ) cell) (tally.visit (some ψ) cell) := by
  refine .bind (Cell.agree_tidy h).caught fun result => ?_
  split
  · exact .bind (agree_tell _ _) fun _ => agree_pure _
  · exact agree_pure _

theorem agree_visitAll {φ ψ : Formatter} {cells : List Value}
    (h : ∀ cell ∈ cells, Cell.HoldsCode cell → Agree R (φ (Cell.code cell)) (ψ (Cell.code cell)))
    (tally : Tally) : Agree R (tally.visitAll (some φ) cells) (tally.visitAll (some ψ) cells) := by
  induction cells generalizing tally with
  | nil => exact agree_pure _
  | cons cell cells ih =>
    obtain ⟨hcell, hcells⟩ := List.forall_mem_cons.mp h
    refine .bind (agree_visit hcell tally) fun visited => ?_
    refine .bind (agree_of _) fun kept => ?_
    exact .bind (ih hcells _) fun _ => agree_pure _

end Tally

/-! ### Documents -/

namespace Notebook

/-- The code of some code cell of a document. -/
def CodeOf (document : Value) (code : String) : Prop :=
  ∃ items cell, document.member? "cells" = some (.array items) ∧ cell ∈ items ∧
    Cell.HoldsCode cell ∧ Cell.code cell = code

end Notebook

namespace Cleaner
open Notebook

theorem agree_cleanCells {φ ψ : Formatter} {document : Value}
    (h : ∀ code, CodeOf document code → Agree R (φ code) (ψ code)) (language : String) :
    Agree R (cleanCells φ language document) (cleanCells ψ language document) := by
  refine .bind_of (agree_of _) fun items hitems => ?_
  obtain ⟨_, hitems⟩ := hitems
  have hcells : ∀ cell ∈ items, Cell.HoldsCode cell →
      Agree R (φ (Cell.code cell)) (ψ (Cell.code cell)) := fun cell hcell hcode =>
    h _ ⟨items, cell, cells_eq_ok_iff.mp hitems, hcell, hcode, rfl⟩
  refine .bind (Tally.agree_visitAll hcells _) fun _ => ?_
  exact .bind (agree_tell _ _) fun _ => agree_pure _

/-- The code of the document for which `P` selects the formatter of a language is formatted
alike, and the toolchain is found alike where it is looked for. -/
structure AgreeOn (R : Tree → Tree → Prop) (P : String → Prop) (a b : Cleaner)
    (document : Value) : Prop where
  python : WrittenIn document pythonName → ∀ code, CodeOf document code → P code →
    Agree R (a.python code) (b.python code)
  probe : WrittenIn document juliaName → Agree R a.probe b.probe
  julia : WrittenIn document juliaName → (∃ t, (a.probe.run t).outcome = .ok true) →
    ∀ code, CodeOf document code → P code → Agree R (a.julia code) (b.julia code)

/-- What is chosen is the formatter of the document's language, and for Julia the toolchain was
found. -/
theorem choose_cases {a : Cleaner} {language : String} {choice : Choice} {t : Tree}
    (h : ((a.choose language).run t).outcome = .ok choice) :
    (choice = .python ∧ language = pythonName) ∨
      (choice = .julia ∧ language = juliaName ∧ (∃ t, (a.probe.run t).outcome = .ok true)) ∨
      choice = .unavailable := by
  rw [choose] at h
  by_cases hj : language = juliaName
  · rw [if_pos hj] at h
    obtain ⟨_, _, h⟩ := Attempt.outcome_bind_eq_ok_iff.mp h
    obtain ⟨available, hp, h⟩ := Attempt.outcome_bind_eq_ok_iff.mp h
    cases h
    cases available with
    | true => exact .inr (.inl ⟨by rw [hj]; rfl, hj, _, hp⟩)
    | false => exact .inr (.inr (by rw [hj]; rfl))
  · rw [if_neg hj] at h
    cases h
    by_cases hp : language = pythonName
    · exact .inl ⟨by rw [hp]; rfl, hp⟩
    · exact .inr (.inr (by simp [Choice.forLanguage, hp]))

theorem agree_choose {a b : Cleaner} {language : String}
    (h : language = juliaName → Agree R a.probe b.probe) :
    Agree R (a.choose language) (b.choose language) := by
  rw [choose, choose]
  split
  · next hj =>
    refine .bind (agree_tell _ _) fun _ => ?_
    exact .bind (h hj) fun _ => agree_pure _
  · exact agree_pure _

theorem agree_cleanDocument {a b : Cleaner} {document : Value}
    (h : AgreeOn R (fun _ => True) a b document) :
    Agree R (a.cleanDocument document) (b.cleanDocument document) := by
  refine .bind_of (agree_of _) fun language hlanguage => ?_
  obtain ⟨_, hname⟩ := hlanguage
  have hwritten : WrittenIn document language := languageName_eq_ok_iff.mp hname
  refine .bind_of (agree_choose fun hj => h.probe (hj ▸ hwritten)) fun choice hchoice => ?_
  obtain ⟨_, hchoice⟩ := hchoice
  obtain ⟨rfl, rfl⟩ | ⟨rfl, rfl, htrue⟩ | rfl := choose_cases hchoice
  · refine .bind (agree_cleanCells (fun code hcode => ?_) _) fun _ => agree_pure _
    exact h.python hwritten code hcode trivial
  · refine .bind (agree_cleanCells (fun code hcode => ?_) _) fun _ => agree_pure _
    exact h.julia hwritten htrue code hcode trivial
  · exact agree_pure _

/-! ### Cleaning that does not depend on files -/

variable {c : Cleaner} {python julia : String → Except Failure String} {available : Bool}

theorem agree_cleanText (hc : c.Computes python julia available) (hfiles : c.KeepsFiles)
    (kind : Kind) (text : String) :
    Agree R (Job.cleanText c kind text) (Job.cleanText c kind text) := by
  have hpython : ∀ code, Agree R (c.python code) (c.python code) := fun code =>
    (hfiles.python code).agree fun t t' => congrFun ((hc.python t).trans (hc.python t').symm) code
  have hjulia : ∀ code, Agree R (c.julia code) (c.julia code) := fun code =>
    (hfiles.julia code).agree fun t t' => congrFun ((hc.julia t).trans (hc.julia t').symm) code
  have hprobe : Agree R c.probe c.probe :=
    hfiles.probe.agree fun t t' => (hc.probe t).trans (hc.probe t').symm
  cases kind with
  | notebook =>
    refine .bind (agree_of _) fun document => ?_
    refine .bind (agree_cleanDocument ⟨?_, ?_, ?_⟩) fun _ =>
      .bind (agree_of _) fun _ => agree_pure _
    · exact fun _ code _ _ => hpython code
    · exact fun _ => hprobe
    · exact fun _ _ code _ _ => hjulia code
  | script =>
    refine .bind ?_ fun _ => agree_pure _
    exact .bind (hpython text) fun _ => agree_pure _

end Cleaner
end NotebookTidy
