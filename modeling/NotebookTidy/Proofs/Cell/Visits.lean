import NotebookTidy.Proofs.Cell.Result

/-! Cells that are visited in turn.

A formatter may change files, and what it makes of code may depend on them. So what comes of a
cell is what its formatter comes to among the files that the visits before it left (`InTurn`), and
cells that were all visited came to what is left of them one by one
(`visitAll_in_turn`). -/
namespace NotebookTidy
open Files Json

/-- A cell that was visited: the files that were there, and what came of it. -/
structure Visit where
  cell : Value
  files : Tree
  result : Option Value

/-- Cells visited one after the other, each among the files that the one before it left. -/
inductive InTurn (φ : Formatter) : Tree → List Visit → Prop where
  | nil {t : Tree} : InTurn φ t []
  | cons {t : Tree} {cell : Value} {result : Option Value} {visits : List Visit}
      (visited : ((Cell.tidy (some φ) cell).run t).outcome = .ok result)
      (rest : InTurn φ ((Cell.tidy (some φ) cell).run t).tree visits) :
      InTurn φ t (⟨cell, t, result⟩ :: visits)

/-- What came of a cell is what the formatter comes to among the files that were there. -/
theorem InTurn.result_of_mem {φ : Formatter} {t : Tree} {visits : List Visit}
    (h : InTurn φ t visits) :
    ∀ v ∈ visits, Cell.result (φ.among v.files) v.cell = .ok v.result := by
  induction h with
  | nil => exact fun _ hv => absurd hv List.not_mem_nil
  | cons visited _ ih =>
    refine List.forall_mem_cons.mpr ⟨?_, ih⟩
    rw [← Cell.tidy_outcome, visited]

namespace Tally

/-- Cells of which none failed were visited in turn, and those that were not dropped are left. -/
theorem visitAll_in_turn {φ : Formatter} {tally tally' : Tally} {cells kept : List Value} {t : Tree}
    (h : ((tally.visitAll (some φ) cells).run t).outcome = .ok (tally', kept)) :
    ∃ visits, InTurn φ t visits ∧ visits.map Visit.cell = cells ∧
      visits.filterMap Visit.result = kept := by
  induction cells generalizing tally tally' kept t with
  | nil =>
    cases h
    exact ⟨[], .nil, rfl, rfl⟩
  | cons cell cells ih =>
    rw [visitAll, Attempt.outcome_bind_eq_ok_iff] at h
    obtain ⟨⟨tally₁, result⟩, hvisit, h⟩ := h
    obtain ⟨kept₁, hresult, h⟩ := Attempt.outcome_bind_eq_ok_iff.mp h
    obtain ⟨⟨tally₂, rest⟩, hrest, h⟩ := Attempt.outcome_bind_eq_ok_iff.mp h
    cases h
    obtain ⟨_, hrun⟩ := Cell.run_visit tally (some φ) cell t
    rw [hrun] at hvisit hrest
    simp only [Except.ok.injEq, Prod.mk.injEq] at hvisit
    obtain ⟨visits, hturn, hcells, hkept⟩ := ih hrest
    have hcell : ((Cell.tidy (some φ) cell).run t).outcome = .ok kept₁ := hvisit.2.trans hresult
    refine ⟨⟨cell, t, kept₁⟩ :: visits, .cons hcell hturn, by rw [List.map_cons, hcells], ?_⟩
    cases kept₁ <;> simp [hkept]

end Tally
end NotebookTidy
