/-! Hiding the magics of notebook code.

A line of code that begins with a percent sign is a command to the notebook's kernel,
and no Python. While Python formatters run, such lines are turned into comments that
begin with `##%`, and turned back afterwards. -/
namespace NotebookTidy.Formatter

/-- Hides the magics. `atStart` says whether a line begins here. -/
def maskFrom : (atStart : Bool) → List Char → List Char
  | _, [] => []
  | atStart, c :: cs =>
    if atStart && c == '%' then '#' :: '#' :: '%' :: maskFrom false cs
    else c :: maskFrom (c == '\n') cs

/-- Shows the magics again. -/
def unmaskFrom : (atStart : Bool) → List Char → List Char
  | true, '#' :: '#' :: '%' :: cs => '%' :: unmaskFrom false cs
  | _, [] => []
  | _, c :: cs => c :: unmaskFrom (c == '\n') cs

def maskMagics (code : String) : String :=
  String.ofList (maskFrom true code.toList)

def unmaskMagics (code : String) : String :=
  String.ofList (unmaskFrom true code.toList)

end NotebookTidy.Formatter
