import NotebookTidy.Files.Tree
import NotebookTidy.Notebook

/-! Notebooks in files. -/
namespace NotebookTidy.Notebook
open Files Json

/-- The notebook that a file holds. -/
def load (t : Tree) (p : Path) : Except Failure Value :=
  match t.readText p with
  | .ok text => parse text
  | .error e => .error (.io e)

/-- Writes a notebook to a file. -/
def save (t : Tree) (p : Path) (v : Value) : Except Failure Tree := do
  let text ← written v
  (t.write p (Text.encode text)).mapError .io

end NotebookTidy.Notebook
