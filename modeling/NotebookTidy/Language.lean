/-! Languages of notebooks, and which formatter their code goes to. -/
namespace NotebookTidy

/-- The formatter for the code of a notebook. -/
inductive Choice where
  | python
  | julia
  | unavailable
deriving DecidableEq, Repr

def pythonName : String := "python"
def juliaName : String := "julia"

/-- Python code can always be formatted, Julia code when its toolchain is there. Names
are told apart by case. -/
def Choice.forLanguage (language : String) (toolchain : Bool) : Choice :=
  if language = pythonName then .python
  else if language = juliaName ∧ toolchain then .julia
  else .unavailable

end NotebookTidy
