import NotebookTidy.Files.IoError
import NotebookTidy.Json.Message

/-! What can go wrong when code is cleaned, and how it is said.

A failure is a cause, not a text. Some causes have a cause of their own, which is said
again when the whole chain is shown. -/
namespace NotebookTidy
open Files

/-- The parts of a notebook that cleaning cannot do without. -/
inductive Field where
  | languageName
  | cells
  | cellType
deriving DecidableEq, Repr

def Field.path : Field → String
  | .languageName => "metadata.language_info.name"
  | .cells => "cells"
  | .cellType => "cells[].cell_type"

inductive Failure where
  | io (e : IoError)
  | json (e : Json.Error)
  | toml
  | unsupportedFormat
  | tomlNotEnabled
  | missingField (field : Field)
  /-- The formatter could not be started. -/
  | notStarted (program : String) (e : IoError)
  /-- The formatter ended with a status other than zero. -/
  | exited (program : String) (status : Nat) (stderr : String)
  /-- What the formatter wrote is no text. -/
  | outputNotText (program : String)
deriving DecidableEq, Repr

namespace Failure

def message : Failure → String
  | .io e => "IO error: " ++ e.message
  | .json e => "JSON parsing error: " ++ e.message
  | .toml => "TOML parsing error"
  | .unsupportedFormat => "Unsupported config file format. Use .json or .toml"
  | .tomlNotEnabled =>
    "TOML support is not enabled. Enable the 'toml_config' feature to use TOML configs."
  | .missingField field => "Notebook is missing required field `" ++ field.path ++ "`"
  | .notStarted program e => "Failed to start formatter `" ++ program ++ "`: " ++ e.message
  | .exited program status stderr =>
    "Formatter `" ++ program ++ "` exited with exit status: " ++ toString status ++ ": " ++ stderr
  | .outputNotText program => "Formatter `" ++ program ++ "` produced non UTF-8 output"

/-- What the failure itself comes from. -/
def source? : Failure → Option String
  | .io e => some e.message
  | .json e => some e.message
  | .notStarted _ e => some e.message
  | _ => none

/-- The failure and what it comes from, outermost first. -/
def chain (f : Failure) : List String := f.message :: f.source?.toList

end Failure
end NotebookTidy
