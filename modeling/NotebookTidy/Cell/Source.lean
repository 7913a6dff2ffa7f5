import NotebookTidy.Json.Value
import NotebookTidy.Text.Lines

/-! The source of a cell.

A notebook keeps the source of a cell as the list of its lines, or as one text. -/
namespace NotebookTidy.Cell
open Json

/-- The code that a source holds. Whatever is neither a text nor a line of a list counts
for nothing. -/
def joinSource : Value → String
  | .string text => text
  | .array items => String.ofList ((items.filterMap Value.string?).flatMap String.toList)
  | _ => ""

/-- The lines of code, every one but the last with its newline; `none` when there is no
code at all. -/
def splitSource (code : String) : Option (List String) :=
  if code.toList = [] then none
  else some ((Text.cutAfterNewlines code.toList).map String.ofList)

end NotebookTidy.Cell
