import NotebookTidy.Cell.Source
import NotebookTidy.Formatter

/-! Tidying a cell.

A cell loses what its execution left behind: it gets an empty list of outputs and no
execution count, and its source is not hidden any more. The source of a code cell is
formatted when there is a formatter for it; a code cell that formats to nothing is
dropped. Everything else in a cell stays as it is, in its place. -/
namespace NotebookTidy
open Json

namespace Cell

/-- Shows a source that is hidden. -/
def unhide (cell : Members) : Members :=
  cell.modify "metadata" (·.mapMembers
    (·.modify "jupyter" (·.mapMembers (·.erase "source_hidden"))))

/-- Takes away what execution left behind. -/
def strip (cell : Members) : Members :=
  unhide ((cell.insert "execution_count" .null).insert "outputs" (.array []))

def isCode (cellType : Value) : Bool := cellType == .string "code"

/-- The lines of a formatted source; `none` when nothing is left of it. -/
def formatSource (f : Formatter) (source : Value) : Attempt (Option (List String)) := do
  let code ← f (joinSource source)
  pure (splitSource code)

def setSource (cell : Members) (lines : List String) : Members :=
  cell.insert "source" (.array (lines.map .string))

/-- The cell as it should be; `none` when it is to be dropped. -/
def tidy (f : Option Formatter) : Value → Attempt (Option Value)
  | .object members =>
    let cell := strip members
    match cell.get? "cell_type", f with
    | none, _ => .fail (.missingField .cellType)
    | some cellType, some f =>
      if isCode cellType then do
        let lines ← formatSource f ((cell.get? "source").getD .null)
        pure (lines.map fun lines => .object (setSource cell lines))
      else pure (some (.object cell))
    | some _, none => pure (some (.object cell))
  | _ => .fail (.missingField .cellType)

end Cell

/-! ### Many cells -/

/-- How many cells were visited, and how many of them dropped. -/
structure Tally where
  visited : Nat
  dropped : Nat
deriving DecidableEq, Repr

namespace Tally

def zero : Tally := ⟨0, 0⟩

/-- Visits a cell. A cell that fails counts as visited; one that is dropped is told of
by its number. -/
def visit (tally : Tally) (f : Option Formatter) (cell : Value) :
    Attempt (Tally × Except Failure (Option Value)) := do
  match (← (Cell.tidy f cell).caught) with
  | .ok none =>
    .tell (.cellDropped tally.visited)
    pure (⟨tally.visited + 1, tally.dropped + 1⟩, .ok none)
  | result => pure (⟨tally.visited + 1, tally.dropped⟩, result)

/-- Visits cells up to the first one that fails, and keeps those that are not
dropped. -/
def visitAll (tally : Tally) (f : Option Formatter) : List Value → Attempt (Tally × List Value)
  | [] => pure (tally, [])
  | cell :: cells => do
    let (tally, result) ← tally.visit f cell
    let kept ← .of result
    let (tally, rest) ← tally.visitAll f cells
    pure (tally, kept.toList ++ rest)

end Tally
end NotebookTidy
