import Mathlib.Data.List.Forall2
import NotebookTidy.Proofs.Cell.Source
import NotebookTidy.Proofs.Json.Members
import NotebookTidy.Proofs.Outcome

/-! What comes of a cell, and of many cells, when code goes through a function.

Tidying a cell comes to `result` (`tidy_outcome`), which has three outcomes, each with its own
condition: a failure (`Fails`), nothing (`Dropped`), or another cell (`Kept`). Visiting
cells comes to `results` (`visitAll_outcome`). If some cell fails, the result is the failure of
the first one that does, whatever comes after it (`results_of_fails`); otherwise it is the
cells that are not dropped, in their order, each as it is kept (`results_of_noneFails`). -/
namespace NotebookTidy
open Files Json

/-- The tally once another cell has come to a result. -/
def Tally.counting (tally : Tally) (result : Except Failure (Option Value)) : Tally :=
  ⟨tally.visited + 1, tally.dropped + if result = .ok none then 1 else 0⟩

namespace Cell

/-! ### The parts of a cell -/

/-- The code that a cell holds; none when it has no source. -/
def code (cell : Value) : String := joinSource ((cell.member? "source").getD .null)

/-- A cell whose source is code. -/
def HoldsCode (cell : Value) : Prop := cell.member? "cell_type" = some (.string "code")

instance : DecidablePred HoldsCode := fun _ => inferInstanceAs (Decidable (_ = _))

theorem isCode_iff (cellType : Value) : isCode cellType = true ↔ cellType = .string "code" := by
  simp [isCode]

/-- Stripping a cell concerns three of its members. -/
theorem get?_strip_of_ne (ms : Members) {key : String} (hc : key ≠ "execution_count")
    (ho : key ≠ "outputs") (hm : key ≠ "metadata") : (strip ms).get? key = ms.get? key := by
  rw [strip, unhide, Members.get?_modify, if_neg fun h => hm h.symm,
    Members.get?_insert_of_ne _ ho, Members.get?_insert_of_ne _ hc]

@[simp] theorem get?_strip_cellType (ms : Members) :
    (strip ms).get? "cell_type" = ms.get? "cell_type" :=
  get?_strip_of_ne ms (by decide) (by decide) (by decide)

@[simp] theorem get?_strip_source (ms : Members) :
    (strip ms).get? "source" = ms.get? "source" :=
  get?_strip_of_ne ms (by decide) (by decide) (by decide)

@[simp] theorem get?_strip_executionCount (ms : Members) :
    (strip ms).get? "execution_count" = some .null := by
  rw [strip, unhide, Members.get?_modify, if_neg (by decide),
    Members.get?_insert_of_ne _ (by decide), Members.get?_insert_self]

@[simp] theorem get?_strip_outputs (ms : Members) :
    (strip ms).get? "outputs" = some (.array []) := by
  rw [strip, unhide, Members.get?_modify, if_neg (by decide), Members.get?_insert_self]

/-! ### One cell -/

variable (f : String → Except Failure String)

/-- What comes of a cell. -/
def result : Value → Except Failure (Option Value)
  | .object ms =>
    match Members.get? ms "cell_type" with
    | none => .error (.missingField .cellType)
    | some cellType =>
      if isCode cellType then
        (f (code (.object ms))).map fun text =>
          (splitSource text).map fun lines => .object (setSource (strip ms) lines)
      else .ok (some (.object (strip ms)))
  | _ => .error (.missingField .cellType)

theorem tidy_outcome (φ : Formatter) (cell : Value) (t : Tree) :
    ((tidy (some φ) cell).run t).outcome = result (φ.among t) cell := by
  cases cell with
  | object ms =>
    cases h : Members.get? ms "cell_type" with
    | none => simp only [tidy, result, get?_strip_cellType, h, Attempt.run_fail]
    | some cellType =>
      simp only [tidy, result, get?_strip_cellType, get?_strip_source, h]
      by_cases hcode : isCode cellType = true
      · simp only [hcode, if_true, formatSource, Attempt.outcome_bind, Attempt.outcome_pure,
          Formatter.among, code, Value.member?_object]
        cases ((φ (joinSource ((Members.get? ms "source").getD .null))).run t).outcome <;> rfl
      · simp only [hcode]
        rfl
  | _ => rfl

/-- A cell that is no object or has no type fails, and so does a cell whose code fails. -/
def Fails (cell : Value) (e : Failure) : Prop :=
  (cell.member? "cell_type" = none ∧ e = .missingField .cellType) ∨
    (HoldsCode cell ∧ f (code cell) = .error e)

/-- A cell whose code comes to nothing. -/
def Dropped (cell : Value) : Prop := HoldsCode cell ∧ f (code cell) = .ok ""

instance : DecidablePred (Dropped f) := fun _ => inferInstanceAs (Decidable (_ ∧ _))

/-- A cell before and after: stripped, and with the lines of its formatted code if it holds
code. -/
inductive Kept : Value → Value → Prop where
  | other {ms : Members} {cellType : Value} (typed : ms.get? "cell_type" = some cellType)
      (hne : cellType ≠ .string "code") : Kept (.object ms) (.object (strip ms))
  | code {ms : Members} {text : String} {lines : List String}
      (typed : ms.get? "cell_type" = some (.string "code"))
      (formatted : f (code (.object ms)) = .ok text) (split : splitSource text = some lines) :
      Kept (.object ms) (.object (setSource (strip ms) lines))

variable {f}

/-- A cell has no type, or one that is not that of code, or it holds code. -/
theorem type_cases (cell : Value) :
    cell.member? "cell_type" = none ∨
      (∃ (ms : Members) (cellType : Value), cell = .object ms ∧
        ms.get? "cell_type" = some cellType ∧ cellType ≠ .string "code") ∨
      ∃ ms : Members, cell = .object ms ∧ ms.get? "cell_type" = some (.string "code") := by
  cases h : cell.member? "cell_type" with
  | none => exact .inl rfl
  | some cellType =>
    obtain ⟨ms, rfl, hms⟩ := Value.member?_eq_some_iff.mp h
    by_cases hcode : cellType = .string "code"
    · exact .inr (.inr ⟨ms, rfl, hcode ▸ hms⟩)
    · exact .inr (.inl ⟨ms, cellType, rfl, hms, hcode⟩)

theorem result_of_untyped {cell : Value} (h : cell.member? "cell_type" = none) :
    result f cell = .error (.missingField .cellType) := by
  cases cell with
  | object ms =>
    rw [Value.member?_object] at h
    simp only [result, h]
  | _ => rfl

theorem result_of_other {ms : Members} {cellType : Value}
    (typed : ms.get? "cell_type" = some cellType) (hne : cellType ≠ .string "code") :
    result f (.object ms) = .ok (some (.object (strip ms))) := by
  simp only [result, typed, isCode_iff, if_neg hne]

theorem result_of_code {ms : Members} (typed : ms.get? "cell_type" = some (.string "code")) :
    result f (.object ms) = (f (code (.object ms))).map fun text =>
      (splitSource text).map fun lines => .object (setSource (strip ms) lines) := by
  simp only [result, typed, isCode_iff, if_true]

theorem result_eq_error_iff {cell : Value} {e : Failure} :
    result f cell = .error e ↔ Fails f cell e := by
  rw [Fails, HoldsCode]
  rcases type_cases cell with h | ⟨ms, cellType, rfl, typed, hne⟩ | ⟨ms, rfl, typed⟩
  · simp [result_of_untyped h, h, eq_comm]
  · simp [result_of_other typed hne, typed, hne]
  · rw [result_of_code typed]
    cases hf : f (code (.object ms)) <;> simp [typed, Except.map]

theorem result_eq_none_iff {cell : Value} : result f cell = .ok none ↔ Dropped f cell := by
  rw [Dropped, HoldsCode]
  rcases type_cases cell with h | ⟨ms, cellType, rfl, typed, hne⟩ | ⟨ms, rfl, typed⟩
  · simp [result_of_untyped h, h]
  · simp [result_of_other typed hne, typed, hne]
  · rw [result_of_code typed]
    cases hf : f (code (.object ms)) <;> simp [typed, Except.map, splitSource_eq_none_iff]

theorem kept_of_result {cell new : Value} (h : result f cell = .ok (some new)) :
    Kept f cell new := by
  rcases type_cases cell with hnone | ⟨ms, cellType, rfl, typed, hne⟩ | ⟨ms, rfl, typed⟩
  · rw [result_of_untyped hnone] at h
    cases h
  · rw [result_of_other typed hne] at h
    cases h
    exact .other typed hne
  · rw [result_of_code typed] at h
    obtain ⟨text, hf, h⟩ := exists_of_map_eq_ok h
    obtain ⟨lines, hsplit, rfl⟩ := Option.map_eq_some_iff.mp h
    exact .code typed hf hsplit

/-! ### Many cells -/

/-- A visit changes the files as the cell does, what comes of the cell is its result, and the tally
counts it. -/
theorem run_visit (tally : Tally) (φ : Option Formatter) (cell : Value) (t : Tree) :
    ∃ events, (tally.visit φ cell).run t =
      ⟨((tidy φ cell).run t).tree, events,
        .ok (tally.counting ((tidy φ cell).run t).outcome, ((tidy φ cell).run t).outcome)⟩ := by
  rw [Tally.visit, Attempt.run_bind_of_ok (Attempt.outcome_caught _ t), Attempt.run_caught]
  cases ((tidy φ cell).run t).outcome with
  | error e => exact ⟨_, rfl⟩
  | ok kept => cases kept <;> exact ⟨_, rfl⟩

theorem outcome_visit (tally : Tally) (φ : Option Formatter) (cell : Value) (t : Tree) :
    ((tally.visit φ cell).run t).outcome =
      .ok (tally.counting ((tidy φ cell).run t).outcome, ((tidy φ cell).run t).outcome) := by
  obtain ⟨_, hrun⟩ := run_visit tally φ cell t
  rw [hrun]

variable (f)

/-- What comes of the cells up to the first one that fails. -/
def results : List Value → Except Failure (List Value)
  | [] => .ok []
  | cell :: cells =>
    (result f cell).bind fun kept => (results cells).map fun rest => kept.toList ++ rest

variable {f}

theorem visitAll_outcome {φ : Formatter} (hφ : φ.Computes f) (tally : Tally) (cells : List Value)
    (t : Tree) :
    ((tally.visitAll (some φ) cells).run t).outcome.map Prod.snd = results f cells := by
  induction cells generalizing tally t with
  | nil => rfl
  | cons cell cells ih =>
    obtain ⟨_, hvisit⟩ := run_visit tally (some φ) cell t
    rw [tidy_outcome, hφ t] at hvisit
    rw [Tally.visitAll, Attempt.outcome_bind, hvisit, results]
    simp only [Except.bind, Attempt.outcome_bind, Attempt.outcome_of]
    cases result f cell with
    | error e => rfl
    | ok kept =>
      rw [← ih (tally.counting (.ok kept)) ((tidy (some φ) cell).run t).tree]
      simp only [Attempt.run_of]
      cases (((tally.counting (.ok kept)).visitAll (some φ) cells).run
        ((tidy (some φ) cell).run t).tree).outcome <;> rfl

/-- No cell fails. -/
def NoneFails (f : String → Except Failure String) (cells : List Value) : Prop :=
  ∀ cell ∈ cells, ∀ e, ¬ Fails f cell e

theorem noneFails_cons {cell : Value} {cells : List Value} :
    NoneFails f (cell :: cells) ↔ (∀ e, ¬ Fails f cell e) ∧ NoneFails f cells := by
  simp [NoneFails]

theorem not_fails_of_result {cell : Value} {kept : Option Value} (h : result f cell = .ok kept) :
    ∀ e, ¬ Fails f cell e := by
  intro e he
  rw [result_eq_error_iff.mpr he] at h
  cases h

/-- A visit fails with the first cell that does. -/
theorem results_of_fails {before after : List Value} {cell : Value} {e : Failure}
    (hbefore : NoneFails f before) (he : Fails f cell e) :
    results f (before ++ cell :: after) = .error e := by
  induction before with
  | nil =>
    rw [List.nil_append, results, result_eq_error_iff.mpr he]
    rfl
  | cons b before ih =>
    obtain ⟨hb, hbefore⟩ := noneFails_cons.mp hbefore
    rw [List.cons_append, results, ih hbefore]
    cases hr : result f b with
    | error e' => exact absurd (result_eq_error_iff.mp hr) (hb e')
    | ok kept => rfl

/-- Cells of which none fails come to those that are not dropped. -/
theorem results_of_noneFails {cells : List Value} (h : NoneFails f cells) :
    ∃ kept, results f cells = .ok kept ∧
      List.Forall₂ (Kept f) (cells.filter fun cell => ¬ Dropped f cell) kept := by
  induction cells with
  | nil => exact ⟨[], rfl, .nil⟩
  | cons cell cells ih =>
    obtain ⟨hcell, hcells⟩ := noneFails_cons.mp h
    obtain ⟨rest, hrest, hkept⟩ := ih hcells
    cases hr : result f cell with
    | error e => exact absurd (result_eq_error_iff.mp hr) (hcell e)
    | ok kept =>
      refine ⟨kept.toList ++ rest, ?_, ?_⟩
      · rw [results, hr, hrest]
        rfl
      · cases kept with
        | none =>
          have hdropped : Dropped f cell := result_eq_none_iff.mp hr
          simpa [hdropped] using hkept
        | some new =>
          have hnot : ¬ Dropped f cell := by
            intro hdropped
            rw [result_eq_none_iff.mpr hdropped] at hr
            cases hr
          simpa [hnot] using And.intro (kept_of_result hr) hkept

/-- Either no cell fails or some cell is the first to fail. -/
theorem noneFails_or_first (f : String → Except Failure String) (cells : List Value) :
    NoneFails f cells ∨ ∃ before cell after e, cells = before ++ cell :: after ∧
      NoneFails f before ∧ Fails f cell e := by
  induction cells with
  | nil => exact .inl fun _ h => absurd h List.not_mem_nil
  | cons cell cells ih =>
    cases hr : result f cell with
    | error e =>
      exact .inr ⟨[], cell, cells, e, rfl, fun _ h => absurd h List.not_mem_nil,
        result_eq_error_iff.mp hr⟩
    | ok kept =>
      have hcell := not_fails_of_result hr
      rcases ih with hnone | ⟨before, first, after, e, rfl, hbefore, he⟩
      · exact .inl (noneFails_cons.mpr ⟨hcell, hnone⟩)
      · exact .inr ⟨cell :: before, first, after, e, rfl, noneFails_cons.mpr ⟨hcell, hbefore⟩, he⟩

end Cell
end NotebookTidy
