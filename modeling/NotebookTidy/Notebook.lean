import NotebookTidy.Failure
import NotebookTidy.Json.Reader
import NotebookTidy.Json.Writer
import NotebookTidy.Text.Utf8

/-! Notebooks as documents: a JSON value, its text, and the parts that matter. -/
namespace NotebookTidy
open Json

namespace Notebook

/-- The text of a notebook: on lines, all ASCII, with a newline at its end. -/
def render (v : Value) : String :=
  String.ofList (indented escapeAscii 0 v ++ ['\n'])

/-- The text of a notebook as a writer makes it, provided that the bytes it wrote are one. -/
def written (v : Value) : Except Failure String :=
  match Text.decode? ((Writer.start.writeValue v).write ['\n']).output.data.toList with
  | some text => .ok text
  | none => .error (.io .notUtf8)

/-- The notebook that a text holds. -/
def parse (text : String) : Except Failure Value :=
  (read text).mapError .json

/-- The language that a notebook says it is written in. -/
def language? (v : Value) : Option String := do
  let metadata ← v.member? "metadata"
  let info ← metadata.member? "language_info"
  let name ← info.member? "name"
  name.string?

def languageName (v : Value) : Except Failure String :=
  match language? v with
  | some name => .ok name
  | none => .error (.missingField .languageName)

/-- The cells of a notebook, which have to be a list. -/
def cells (v : Value) : Except Failure (List Value) :=
  match (v.member? "cells").bind Value.array? with
  | some cells => .ok cells
  | none => .error (.missingField .cells)

def withCells (v : Value) (cells : List Value) : Value :=
  v.mapMembers (·.insert "cells" (.array cells))

end Notebook
end NotebookTidy
