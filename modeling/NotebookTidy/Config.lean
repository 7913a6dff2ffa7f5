import NotebookTidy.Command
import NotebookTidy.Json.Layout

/-! Which formatters are used.

A config names the formatters for Python code, which run one after the other, the
formatter for Julia code, and the command that tells whether the latter can be used.
What a config does not say is as in `Config.standard`. -/
namespace NotebookTidy
open Json

structure Config where
  python : List Command
  julia : Command
  juliaProbe : Command
  maskMagics : Bool
deriving DecidableEq, Repr

/-! ### The standard formatters -/

namespace Config

def standardPython : List Command :=
  [⟨"isort", ["-"]⟩, ⟨"black", ["--quiet", "-"]⟩]

def standardJulia : Command :=
  ⟨"julia", ["--startup-file=no", "--eval",
    "using JuliaFormatter; print(format_text(read(stdin, String)))"]⟩

def standardJuliaProbe : Command :=
  ⟨"julia", ["--startup-file=no", "--eval", "using JuliaFormatter"]⟩

def standard : Config := ⟨standardPython, standardJulia, standardJuliaProbe, true⟩

/-- What a config says, as far as it says it. -/
structure Draft where
  python : Option (List Command)
  julia : Option Command
  juliaProbe : Option Command
  maskMagics : Option Bool
deriving DecidableEq, Repr

def Draft.blank : Draft := ⟨none, none, none, none⟩

/-- Fills in what a config does not say. -/
def Draft.complete (d : Draft) : Config :=
  ⟨d.python.getD standardPython, d.julia.getD standardJulia,
    d.juliaProbe.getD standardJuliaProbe, d.maskMagics.getD true⟩

end Config

/-! ### A config as JSON -/

def Command.toJson (c : Command) : Value :=
  .object [("program", .string c.program), ("args", .array (c.args.map .string))]

def Config.toJson (c : Config) : Value :=
  .object
    [("python", .array (c.python.map Command.toJson)),
      ("julia", c.julia.toJson),
      ("julia_probe", c.juliaProbe.toJson),
      ("mask_magics", .bool c.maskMagics)]

/-- The text of a config. -/
def Config.text (c : Config) : String :=
  String.ofList (compact escape c.toJson)

end NotebookTidy
