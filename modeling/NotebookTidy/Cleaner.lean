import NotebookTidy.Cell
import NotebookTidy.Config
import NotebookTidy.Formatter.Language
import NotebookTidy.Language
import NotebookTidy.Notebook

/-! Cleaning a notebook.

A cleaner holds a formatter for each language and a probe for the toolchain that Julia
code needs. The toolchain is asked about only for a notebook in Julia. A notebook in
any other language is left as it is; one in which some cell fails is, too. -/
namespace NotebookTidy
open Json

/-- Finds out whether an optional toolchain is there. -/
abbrev Probe := Attempt Bool

/-- The probe that runs a command and looks at its exit status. -/
def Probe.ofCommand (run : Runner) (command : Command) : Probe := do
  match (← .start run command .nothing) with
  | .notStarted e =>
    .tell (.probeNotStarted command.program e)
    pure false
  | .finished status _ _ _ =>
    .tell (.probeFinished command.program status)
    pure (status == 0)

structure Cleaner where
  python : Formatter
  julia : Formatter
  probe : Probe

/-- What came of cleaning a file or a document. -/
inductive Status where
  | cleaned
  /-- There is no formatter for the language. -/
  | uncleanable (language : String)
deriving DecidableEq, Repr

def Status.isCleaned (s : Status) : Bool := s == .cleaned

namespace Cleaner

/-- Asks about the toolchain when the language needs one. -/
def choose (c : Cleaner) (language : String) : Attempt Choice :=
  if language = juliaName then do
    .tell .toolchainAsked
    let available ← c.probe
    pure (.forLanguage language available)
  else pure (.forLanguage language false)

def formatter? (c : Cleaner) : Choice → Option Formatter
  | .python => some c.python
  | .julia => some c.julia
  | .unavailable => none

/-- The document cleaned with a formatter for its cells. -/
def cleanCells (f : Formatter) (language : String) (document : Value) : Attempt Value := do
  let cells ← .of (Notebook.cells document)
  let (tally, kept) ← Tally.zero.visitAll (some f) cells
  .tell (.cellsCleaned language tally.visited tally.dropped)
  pure (Notebook.withCells document kept)

/-- What comes of cleaning a document, and the document that comes of it. -/
def cleanDocument (c : Cleaner) (document : Value) : Attempt (Status × Value) := do
  let language ← .of (Notebook.languageName document)
  let choice ← c.choose language
  match c.formatter? choice with
  | none => pure (.uncleanable language, document)
  | some f => do
    let document ← cleanCells f language document
    pure (.cleaned, document)

/-- The document after an attempt at cleaning it. One that failed leaves it as it was. -/
def documentAfter (document : Value) : Except Failure (Status × Value) → Value
  | .ok (_, cleaned) => cleaned
  | .error _ => document

/-- What comes of formatting the code of a script. Code ends in one newline. -/
def formatScript (c : Cleaner) (code : String) : Attempt String := do
  let formatted ← c.python code
  pure (if formatted = "" then "" else formatted ++ "\n")

end Cleaner

/-- The cleaner that a config describes: its formatters are external programs. -/
def Config.cleaner (run : Runner) (c : Config) : Cleaner where
  python := .python (c.python.map (Formatter.ofCommand run)) c.maskMagics
  julia := .julia (.ofCommand run c.julia)
  probe := .ofCommand run c.juliaProbe

end NotebookTidy
