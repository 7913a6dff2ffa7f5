import Mathlib.Data.List.Basic
import NotebookTidy.Text.Pieces

/-! Pieces between separators.

No piece holds the separator (`not_mem_of_mem_splitAt`), and pieces that do not are what the
joined list is split into (`splitAt_joinWith`). What is before the last separator, and what is
after it, can be told from the list (`append_sep_inj`). -/
namespace NotebookTidy.Text
variable {α : Type}

theorem joinWith_concat (sep : α) {pieces : List (List α)} (hne : pieces ≠ []) (last : List α) :
    joinWith sep (pieces ++ [last]) = joinWith sep pieces ++ sep :: last := by
  induction pieces with
  | nil => exact absurd rfl hne
  | cons piece pieces ih =>
    by_cases hlast : pieces = []
    · rw [hlast]
      rfl
    · rw [List.cons_append, joinWith_cons sep piece (by simp), ih hlast, joinWith_cons sep piece hlast,
        List.append_assoc, List.cons_append]

/-- Joining brings in nothing but the separator. -/
theorem mem_joinWith {sep a : α} {pieces : List (List α)} (h : a ∈ joinWith sep pieces) :
    a = sep ∨ ∃ piece ∈ pieces, a ∈ piece := by
  induction pieces with
  | nil => cases h
  | cons piece pieces ih =>
    by_cases hlast : pieces = []
    · subst hlast
      exact .inr ⟨piece, List.mem_cons_self, h⟩
    · rw [joinWith_cons sep piece hlast, List.mem_append, List.mem_cons] at h
      rcases h with h | h | h
      · exact .inr ⟨piece, List.mem_cons_self, h⟩
      · exact .inl h
      · obtain hsep | ⟨p, hp, ha⟩ := ih h
        · exact .inl hsep
        · exact .inr ⟨p, List.mem_cons_of_mem _ hp, ha⟩

/-- Joining leaves nothing out. -/
theorem mem_joinWith_of_mem (sep : α) {a : α} {piece : List α} {pieces : List (List α)}
    (hpiece : piece ∈ pieces) (ha : a ∈ piece) : a ∈ joinWith sep pieces := by
  induction pieces with
  | nil => cases hpiece
  | cons first pieces ih =>
    by_cases hlast : pieces = []
    · subst hlast
      rw [List.mem_singleton.mp hpiece] at ha
      exact ha
    · rw [joinWith_cons sep first hlast, List.mem_append, List.mem_cons]
      rcases List.mem_cons.mp hpiece with rfl | hpiece
      · exact .inl ha
      · exact .inr (.inr (ih hpiece))

variable [DecidableEq α]

theorem splitAt_cons_of_ne {sep a : α} (h : a ≠ sep) (as : List α) :
    ∃ piece pieces, splitAt sep as = piece :: pieces ∧
      splitAt sep (a :: as) = (a :: piece) :: pieces := by
  obtain ⟨piece, pieces, hsplit⟩ := List.exists_cons_of_ne_nil (splitAt_ne_nil sep as)
  exact ⟨piece, pieces, hsplit, by rw [splitAt, if_neg h, hsplit]⟩

theorem not_mem_of_mem_splitAt {sep : α} {as piece : List α} (h : piece ∈ splitAt sep as) :
    sep ∉ piece := by
  induction as generalizing piece with
  | nil =>
    rw [splitAt, List.mem_singleton] at h
    rw [h]
    exact List.not_mem_nil
  | cons a as ih =>
    by_cases ha : a = sep
    · rw [splitAt, if_pos ha] at h
      rcases List.mem_cons.mp h with rfl | h
      · exact List.not_mem_nil
      · exact ih h
    · obtain ⟨first, pieces, hsplit, hcons⟩ := splitAt_cons_of_ne ha as
      rw [hsplit] at ih
      rw [hcons] at h
      rcases List.mem_cons.mp h with rfl | h
      · intro hmem
        rcases List.mem_cons.mp hmem with he | hmem
        · exact ha he.symm
        · exact ih List.mem_cons_self hmem
      · exact ih (List.mem_cons_of_mem first h)

theorem splitAt_of_not_mem {sep : α} {piece : List α} (h : sep ∉ piece) :
    splitAt sep piece = [piece] := by
  induction piece with
  | nil => rfl
  | cons a as ih =>
    obtain ⟨ha, has⟩ := not_or.mp (List.mem_cons.not.mp h)
    rw [splitAt, if_neg fun he => ha he.symm, ih has]

theorem splitAt_append {sep : α} {piece : List α} (h : sep ∉ piece) (rest : List α) :
    splitAt sep (piece ++ sep :: rest) = piece :: splitAt sep rest := by
  induction piece with
  | nil => rw [List.nil_append, splitAt, if_pos rfl]
  | cons a as ih =>
    obtain ⟨ha, has⟩ := not_or.mp (List.mem_cons.not.mp h)
    rw [List.cons_append, splitAt, if_neg fun he => ha he.symm, ih has]

theorem splitAt_joinWith {sep : α} {pieces : List (List α)} (hne : pieces ≠ [])
    (h : ∀ piece ∈ pieces, sep ∉ piece) : splitAt sep (joinWith sep pieces) = pieces := by
  induction pieces with
  | nil => exact absurd rfl hne
  | cons piece pieces ih =>
    obtain ⟨hpiece, hpieces⟩ := List.forall_mem_cons.mp h
    by_cases hlast : pieces = []
    · rw [hlast]
      exact splitAt_of_not_mem hpiece
    · rw [joinWith_cons sep piece hlast, splitAt_append hpiece, ih hlast hpieces]

/-- What comes after the last separator is the last piece. -/
theorem splitAt_concat {sep : α} {last : List α} (h : sep ∉ last) (as : List α) :
    splitAt sep (as ++ sep :: last) = splitAt sep as ++ [last] := by
  have hjoin : joinWith sep (splitAt sep as ++ [last]) = as ++ sep :: last := by
    rw [joinWith_concat sep (splitAt_ne_nil sep as), joinWith_splitAt]
  rw [← hjoin, splitAt_joinWith (by simp)]
  intro piece hpiece
  rcases List.mem_append.mp hpiece with hmem | hmem
  · exact not_mem_of_mem_splitAt hmem
  · rwa [List.mem_singleton.mp hmem]

/-- The last separator divides a list in one way only. -/
theorem append_sep_inj {sep : α} {as as' last last' : List α} (h : sep ∉ last) (h' : sep ∉ last')
    (he : as ++ sep :: last = as' ++ sep :: last') : as = as' ∧ last = last' := by
  have hsplit := congrArg (splitAt sep) he
  rw [splitAt_concat h, splitAt_concat h'] at hsplit
  obtain ⟨hfirst, hlast⟩ := List.append_singleton_inj.mp hsplit
  rw [← joinWith_splitAt sep as, hfirst, joinWith_splitAt]
  exact ⟨rfl, hlast⟩

end NotebookTidy.Text
