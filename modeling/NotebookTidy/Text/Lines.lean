import NotebookTidy.Text.Pieces

/-! Text in lines.

A line begins at the start of the text and after every newline. Cut after its
newlines, a text falls into pieces of which all but the last end in their only
newline; the last piece is what follows the last newline, and may be empty. What is
printed is read line by line, and there a carriage return before a newline is part of the
line's end. -/
namespace NotebookTidy.Text

/-- The pieces of a text cut after each newline. There is always a last piece. -/
def cutAfterNewlines : List Char → List (List Char)
  | [] => [[]]
  | c :: cs =>
    if c = '\n' then [c] :: cutAfterNewlines cs
    else match cutAfterNewlines cs with
      | [] => [[c]]
      | piece :: pieces => (c :: piece) :: pieces

theorem cutAfterNewlines_ne_nil (cs : List Char) : cutAfterNewlines cs ≠ [] := by
  cases cs with
  | nil => simp [cutAfterNewlines]
  | cons c cs => rw [cutAfterNewlines]; split <;> (try split) <;> simp

theorem flatten_cutAfterNewlines (cs : List Char) : (cutAfterNewlines cs).flatten = cs := by
  induction cs with
  | nil => rfl
  | cons c cs ih =>
    rw [cutAfterNewlines]
    split
    · simp [ih]
    · split
      · next h => exact absurd h (cutAfterNewlines_ne_nil cs)
      · next h => simp [h] at ih ⊢; exact ih

/-- A line without the carriage return at its end, if there is one. -/
def trimReturn (line : List Char) : List Char :=
  if line.getLast? = some '\r' then line.dropLast else line

/-- The lines of a text that is printed, a newline after it. -/
def printedLines (s : String) : List String :=
  (splitAt '\n' s.toList).map fun line => String.ofList (trimReturn line)

end NotebookTidy.Text
