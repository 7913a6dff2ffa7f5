import NotebookTidy.Formatter
import NotebookTidy.Formatter.Magics

/-! The formatters of the two languages.

Code that is blank formats to nothing without any program being started. Formatted
code never ends in a newline. -/
namespace NotebookTidy.Formatter

/-- Blank code is no code, and code ends where its last line does. -/
def trimmed (f : Formatter) : Formatter := fun code =>
  if Text.allBlank code then pure ""
  else do
    let formatted ← f code
    pure (Text.trimEndNewlines formatted)

/-- Keeps the magics from a formatter. -/
def masked (f : Formatter) : Formatter := fun code => do
  let formatted ← f (maskMagics code)
  pure (unmaskMagics formatted)

/-- Python code goes through a pipeline of formatters. -/
def python (steps : List Formatter) (maskMagics : Bool) : Formatter :=
  trimmed (if maskMagics then masked (inOrder steps) else inOrder steps)

/-- Julia code goes through a single formatter. -/
def julia (f : Formatter) : Formatter := trimmed f

end NotebookTidy.Formatter
