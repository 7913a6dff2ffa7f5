import NotebookTidy.Cleaner

/-! Cleaning a file.

A job copies its file if the file is to be kept, reads it, and writes back what comes of
cleaning it. Each of the three looks at the files once and changes at most one of them,
so that several jobs can take turns; the first that fails ends the job. What formatters
do to other files comes on top of that. -/
namespace NotebookTidy
open Files Json

/-- What a file holds. -/
inductive Kind where
  | notebook
  | script
deriving DecidableEq, Repr

/-- A file to be cleaned, in its place or in a copy beside it. -/
structure Job where
  path : Path
  kind : Kind
  overwrite : Bool
deriving DecidableEq, Repr

abbrev Result := Except Failure Status

namespace Job

/-- The file that is cleaned. -/
def target (job : Job) : Path :=
  if job.overwrite then job.path else job.path.cleaned

/-- Puts the file to be cleaned in its place, and tells of it. -/
def copy (job : Job) : Attempt Unit :=
  if job.overwrite then pure ()
  else do
    .change fun t => t.copy job.path job.target
    .tell (.copied job.path job.target)

def load (job : Job) : Attempt String :=
  .look fun t => t.readText job.target

/-- The status of a text and the text that comes of cleaning it. -/
def cleanText (c : Cleaner) : Kind → String → Attempt (Status × String)
  | .notebook, text => do
    let document ← .of (Notebook.parse text)
    let (status, document) ← c.cleanDocument document
    let text ← .of (Notebook.written document)
    pure (status, text)
  | .script, text => do
    let code ← c.formatScript text
    pure (.cleaned, code)

/-- What is told of a file once it is written. -/
def report (job : Job) : Status → Event
  | .cleaned =>
    match job.kind with
    | .notebook => .notebookCleaned job.target
    | .script => .scriptCleaned job.target
  | .uncleanable language => .notebookLeft job.target language

/-- Cleans the text that was read and writes what comes of it. -/
def finish (c : Cleaner) (job : Job) (text : String) : Attempt Status := do
  let (status, text) ← cleanText c job.kind text
  .change fun t => t.write job.target (Text.encode text)
  .tell (job.report status)
  pure status

/-- A job from its beginning to its end. -/
def run (c : Cleaner) (job : Job) : Attempt Status := do
  job.copy
  let text ← job.load
  job.finish c text

end Job
end NotebookTidy
