import NotebookTidy.Proofs.Cleaner.Decision

/-! Cleaning a document in its place.

An `Edit` works on a document that it may change as it goes: what was changed before a failure
stays changed, and assigning to a member of a value that has none ends everything.
`cleanInPlace` is the cleaning of a document step by step as such an edit. It never ends that
way, and what it leaves is the document after cleaning (`cleanInPlace_follows`), because nothing
is assigned before every cell went through. `cleanDocument_decided` says all that is to be
said of the outcome. -/
namespace NotebookTidy
open Files Json

namespace Json.Value

/-- A value after a member is assigned to it. Null becomes an object first; whatever else is no
object cannot be assigned to. -/
def assign? (v : Value) (key : String) (w : Value) : Option Value :=
  match v with
  | .object ms => some (.object (Members.insert ms key w))
  | .null => some (.object [(key, w)])
  | _ => none

end Json.Value

/-- What is done to a document: a result and the document afterwards, or `none` when it could
not go on at all. -/
abbrev Edit (α : Type) := Value → Attempt (Option (Except Failure α × Value))

namespace Edit
variable {α β : Type}

/-- Looks at the document. -/
def look (f : Value → Except Failure α) : Edit α := fun document => pure (some (f document, document))

/-- Does something else, which may fail. -/
def attempt (x : Attempt α) : Edit α := fun document => do
  let result ← x.caught
  pure (some (result, document))

/-- Assigns to a member of the document. -/
def assign (key : String) (w : Value) : Edit Unit := fun document =>
  pure ((document.assign? key w).map fun changed => (.ok (), changed))

def succeed (a : α) : Edit α := fun document => pure (some (.ok a, document))

def andThen (x : Edit α) (f : α → Edit β) : Edit β := fun document => do
  match ← x document with
  | none => pure none
  | some (.error e, document) => pure (some (.error e, document))
  | some (.ok a, document) => f a document

instance : Monad Edit where
  pure := succeed
  bind := andThen

/-- An edit does what an attempt does and leaves the document alone. -/
def Leaves (x : Edit α) (y : Attempt α) (document : Value) : Prop :=
  ∀ t, (x document).run t =
    ⟨(y.run t).tree, (y.run t).events, .ok (some ((y.run t).outcome, document))⟩

theorem leaves_look (f : Value → Except Failure α) (document : Value) :
    Leaves (look f) (.of (f document)) document := fun _ => rfl

theorem leaves_attempt (x : Attempt α) (document : Value) : Leaves (attempt x) x document := by
  intro t
  rw [attempt, Attempt.run_bind_of_ok (Attempt.outcome_caught x t)]
  simp

end Edit

namespace Cleaner
open Notebook

/-- Cleans a document in its place, its cells last. -/
def cleanInPlace (c : Cleaner) : Edit Status := do
  let language ← Edit.look languageName
  let choice ← Edit.attempt (c.choose language)
  match c.formatter? choice with
  | none => pure (.uncleanable language)
  | some f => do
    let items ← Edit.look cells
    let (tally, kept) ← Edit.attempt (Tally.zero.visitAll (some f) items)
    Edit.attempt (.tell (.cellsCleaned language tally.visited tally.dropped))
    Edit.assign "cells" (.array kept)
    pure .cleaned

/-- An edit comes to what an attempt at cleaning comes to, and leaves the document after it. -/
def Follows (x : Edit Status) (y : Attempt (Status × Value)) (document : Value) (t : Tree) : Prop :=
  (x document).run t = ⟨(y.run t).tree, (y.run t).events,
    .ok (some ((y.run t).outcome.map Prod.fst, documentAfter document (y.run t).outcome))⟩

/-- What leaves the document alone may come first. -/
theorem follows_bind {α : Type} {x : Edit α} {y : Attempt α} {document : Value}
    (hx : x.Leaves y document) {f : α → Edit Status} {g : α → Attempt (Status × Value)} {t : Tree}
    (hfg : ∀ a, (y.run t).outcome = .ok a → Follows (f a) (g a) document (y.run t).tree) :
    Follows (x >>= f) (y >>= g) document t := by
  have hxt := hx t
  rw [Follows]
  change (Edit.andThen x f document).run t = _
  rw [Edit.andThen, Attempt.run_bind_of_ok (a := some ((y.run t).outcome, document)) (by rw [hxt]),
    hxt]
  cases hy : (y.run t).outcome with
  | error e =>
    rw [Attempt.run_bind_of_error hy g]
    simp [Except.map, documentAfter]
  | ok a =>
    have ha := hfg a hy
    rw [Follows] at ha
    rw [Attempt.run_bind_of_ok hy g]
    simp only [ha]

/-- In its place a document becomes what it is after cleaning. -/
theorem cleanInPlace_follows (c : Cleaner) (document : Value) (t : Tree) :
    Follows c.cleanInPlace (c.cleanDocument document) document t := by
  rw [cleanInPlace, cleanDocument]
  refine follows_bind (Edit.leaves_look languageName document) fun language _ => ?_
  refine follows_bind (Edit.leaves_attempt (c.choose language) document) fun choice _ => ?_
  cases c.formatter? choice with
  | none => rfl
  | some f =>
    dsimp only
    rw [cleanCells, Attempt.bind_assoc]
    refine follows_bind (Edit.leaves_look cells document) fun items hitems => ?_
    rw [Attempt.bind_assoc]
    refine follows_bind (Edit.leaves_attempt _ document) fun visited _ => ?_
    obtain ⟨tally, kept⟩ := visited
    dsimp only
    rw [Attempt.bind_assoc]
    refine follows_bind (Edit.leaves_attempt _ document) fun _ _ => ?_
    obtain ⟨ms, rfl, _⟩ := withCells_of_cells (cells_eq_ok_iff.mp hitems) kept
    rfl

/-- **The outcome is decided by the language, then by the cells, then by the first cell
that fails**, in its place or not. The document is as it was unless it was cleaned. -/
theorem cleanDocument_decided {c : Cleaner} {python julia : String → Except Failure String}
    {available : Bool} (hc : c.Computes python julia available) (document : Value) (t : Tree) :
    ∃ r after,
      ((c.cleanDocument document).run t).outcome.map Prod.fst = r ∧
      documentAfter document ((c.cleanDocument document).run t).outcome = after ∧
      ((c.cleanInPlace document).run t).outcome = .ok (some (r, after)) ∧
      (∀ r', r = r' ↔ Decided python julia available document r') ∧
      (r ≠ .ok .cleaned → after = document) := by
  refine ⟨_, _, rfl, rfl, ?_, fun r' => ⟨fun hr => ?_, fun hr => status_of_decided hc hr t⟩,
    documentAfter_of_not_cleaned hc t⟩
  · rw [cleanInPlace_follows c document t]
  · rw [← hr]
    exact decided_status hc document t

def markdownCell : Value := .object [("cell_type", .string "markdown")]

def refusedCell : Value := .object [("cell_type", .string "code"), ("source", .string "!")]

/-- A notebook with a cell that is refused, before one that is no cell at all. -/
def brokenNotebook : Value := pythonNotebook [markdownCell, refusedCell, .number (.int 3)]

theorem cleanDocument_decided_broken :
    (ofFunctions dropPass .ok false).Computes dropPass .ok false ∧
      (((ofFunctions dropPass .ok false).cleanInPlace brokenNotebook).run ⟨[], []⟩).outcome =
        .ok (some (.error (.outputNotText "drop"), brokenNotebook)) := by
  have hc := computes_ofFunctions dropPass .ok false
  obtain ⟨r, after, _, _, hplace, hdecided, hafter⟩ :=
    cleanDocument_decided hc brokenNotebook ⟨[], []⟩
  have hmarkdown : Cell.result dropPass markdownCell = .ok (some (.object
      (Cell.strip [("cell_type", .string "markdown")]))) := by decide +kernel
  have hrefused : Cell.result dropPass refusedCell = .error (.outputNotText "drop") := by
    decide +kernel
  have hfirst : Cell.NoneFails dropPass [markdownCell] := by
    intro cell hcell
    rw [List.mem_singleton.mp hcell]
    exact Cell.not_fails_of_result hmarkdown
  have hr := (hdecided _).mpr (@Decided.cellFails _ _ _ _ dropPass [markdownCell] [.number (.int 3)]
    refusedCell _ (.python ⟨_, _, rfl, rfl, rfl⟩) rfl hfirst (Cell.result_eq_error_iff.mp hrefused))
  subst hr
  rw [hafter (by simp)] at hplace
  exact ⟨hc, hplace⟩

end Cleaner
end NotebookTidy
