import NotebookTidy.Json.Layout

/-! Arrays and objects on lines.

What stands in a bracket is listed: each item or member but the first comes after a comma
(`listed`). The bracket is closed on a line of its own if anything stands in it
(`closingBreak`). So an array and an object are laid out alike, empty or not (`indented_array`,
`indented_object`). -/
namespace NotebookTidy.Json

/-- Pieces that stand first, or after others: then a comma is before each. -/
def listed (first : Bool) : List (List Char) → List Char
  | [] => []
  | p :: ps => (if first then [] else [',']) ++ (p ++ listed false ps)

theorem separated_eq (ps : List (List Char)) : separated [','] ps = listed true ps := by
  have hlater : ∀ p ps, separated [','] (p :: ps) = p ++ listed false ps := by
    intro p ps
    induction ps generalizing p with
    | nil => simp [separated, listed]
    | cons q qs ih => simp [separated, listed, ih]
  cases ps with
  | nil => rfl
  | cons p ps => exact hlater p ps

/-- Empty arrays and objects have no line of their own for what closes them. -/
def closingBreak {α : Type} (level : Nat) : List α → List Char
  | [] => []
  | _ :: _ => lineBreak level

theorem indented_array (esc : Char → List Char) (level : Nat) (items : List Value) :
    indented esc level (.array items) = '[' ::
      (listed true (indentedItems esc (level + 1) items) ++ (closingBreak level items ++ [']'])) := by
  cases items with
  | nil => rfl
  | cons v vs =>
    rw [indented, separated_eq, List.append_assoc]
    simp [closingBreak]

theorem indented_object (esc : Char → List Char) (level : Nat) (ms : List (String × Value)) :
    indented esc level (.object ms) = '{' :: (listed true (indentedMembers esc (level + 1) ms) ++
      (closingBreak level ms ++ ['\x7d'])) := by
  cases ms with
  | nil => rfl
  | cons m ms =>
    rw [indented, separated_eq, List.append_assoc]
    simp [closingBreak]

end NotebookTidy.Json
