import NotebookTidy.Attempt
import NotebookTidy.Text.Blank
import NotebookTidy.Text.Utf8

/-! Formatters.

A formatter makes code of code, or fails. The usual one is an external program that is
given the code as its input and writes the formatted code as its output. -/
namespace NotebookTidy

abbrev Formatter := String → Attempt String

namespace Formatter

/-- What a program that ran has to say: a bad status comes first, then input that it
did not take, then output that is no text. -/
def verdict (program : String) : Outcome → Except Failure String
  | .notStarted e => .error (.notStarted program e)
  | .finished status stdout stderr inputError =>
    if status ≠ 0 then
      .error (.exited program status (Text.trimBlank (Text.decodeLossy stderr)))
    else match inputError with
      | some e => .error (.io e)
      | none =>
        match Text.decode? stdout with
        | some code => .ok code
        | none => .error (.outputNotText program)

/-- The formatter that is a function of the code alone. -/
def ofFunction (f : String → Except Failure String) : Formatter := fun code => .of (f code)

/-- The formatter that is an external program. -/
def ofCommand (run : Runner) (command : Command) : Formatter := fun code => do
  .tell (.formatterStarted command code)
  let outcome ← .start run command (.pipes (Text.encode code))
  .of (verdict command.program outcome)

/-- Formatters one after the other, each given what the one before it made. -/
def inOrder : List Formatter → Formatter
  | [], code => pure code
  | f :: fs, code => do
    let formatted ← f code
    inOrder fs formatted

end Formatter
end NotebookTidy
