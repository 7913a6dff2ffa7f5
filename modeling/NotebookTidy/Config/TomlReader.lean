import NotebookTidy.Config
import NotebookTidy.Toml.Document

/-! Reading a config from TOML.

The parts are those of a config in JSON. A part that is there twice is a fault, whether
it is written as an entry, by dotted keys, or in a section of its own. -/
namespace NotebookTidy.Config
open Toml

def tomlString? : Toml.Value → Option String
  | .string s => some s
  | _ => none

def tomlBool? : Toml.Value → Option Bool
  | .bool b => some b
  | _ => none

def tomlList? (item? : Toml.Value → Option α) : Toml.Value → Option (List α)
  | .array items => items.mapM item?
  | _ => none

/-- The part that a key stands for; there may be none, but not two. -/
def tomlPart? (part? : Toml.Value → Option α) (name : String) (entries : Entries) :
    Option (Option α) :=
  match entries.filter (·.1 == name) with
  | [] => some none
  | [(_, v)] => (part? v).map some
  | _ => none

/-- A command, as a table or as an array of its program and its arguments. -/
def tomlCommand? : Toml.Value → Option Command
  | .table _ entries => do
    let program ← tomlPart? tomlString? "program" entries
    let args ← tomlPart? (tomlList? tomlString?) "args" entries
    let program ← program
    some ⟨program, args.getD []⟩
  | .array [.string program] => some ⟨program, []⟩
  | .array [.string program, args] => (tomlList? tomlString? args).map (⟨program, ·⟩)
  | _ => none

def tomlDraft? (entries : Entries) : Option Draft := do
  let python ← tomlPart? (tomlList? tomlCommand?) "python" entries
  let julia ← tomlPart? tomlCommand? "julia" entries
  let juliaProbe ← tomlPart? tomlCommand? "julia_probe" entries
  let maskMagics ← tomlPart? tomlBool? "mask_magics" entries
  some ⟨python, julia, juliaProbe, maskMagics⟩

/-- The config that a TOML text gives. -/
def readToml? (text : String) : Option Config := do
  let entries ← Toml.read text
  let draft ← tomlDraft? entries
  some draft.complete

end NotebookTidy.Config
