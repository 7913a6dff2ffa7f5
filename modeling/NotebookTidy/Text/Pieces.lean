/-! Lists in pieces.

A separator divides a list into pieces that do not hold it. There is always at least one
piece, and the pieces with separators between them are the list again. -/
namespace NotebookTidy.Text
variable {α : Type}

/-- The pieces between separators. -/
def splitAt [DecidableEq α] (sep : α) : List α → List (List α)
  | [] => [[]]
  | a :: as =>
    if a = sep then [] :: splitAt sep as
    else match splitAt sep as with
      | [] => [[a]]
      | piece :: pieces => (a :: piece) :: pieces

/-- The pieces with separators between them. -/
def joinWith (sep : α) : List (List α) → List α
  | [] => []
  | [piece] => piece
  | piece :: pieces => piece ++ sep :: joinWith sep pieces

theorem splitAt_ne_nil [DecidableEq α] (sep : α) (as : List α) : splitAt sep as ≠ [] := by
  cases as with
  | nil => simp [splitAt]
  | cons a as => rw [splitAt]; split <;> (try split) <;> simp

theorem joinWith_cons (sep : α) (piece : List α) {pieces : List (List α)} (h : pieces ≠ []) :
    joinWith sep (piece :: pieces) = piece ++ sep :: joinWith sep pieces := by
  cases pieces with
  | nil => exact absurd rfl h
  | cons p ps => rfl

theorem joinWith_splitAt [DecidableEq α] (sep : α) (as : List α) :
    joinWith sep (splitAt sep as) = as := by
  induction as with
  | nil => rfl
  | cons a as ih =>
    rw [splitAt]
    split
    · next h => rw [joinWith_cons _ _ (splitAt_ne_nil sep as), ih, h, List.nil_append]
    · split
      · next h => exact absurd h (splitAt_ne_nil sep as)
      · next piece pieces h =>
        rw [h] at ih
        cases pieces with
        | nil => simpa [joinWith] using ih
        | cons p ps => simpa [joinWith] using ih

end NotebookTidy.Text
