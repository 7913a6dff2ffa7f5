import NotebookTidy.Batch

/-! Cleaning the paths of the command line.

The paths are taken in order, whatever comes of those before. A path that names neither a
notebook nor a script is a failure of its own, and so is a notebook whose language has
no formatter. -/
namespace NotebookTidy.Cli
open Files

def isSupported (path : Path) : Bool :=
  path.hasExtension "ipynb" || path.hasExtension "py"

/-- What is told of a result besides what the job has told. -/
def complaint? (path : Path) : Result → Option Event
  | .ok .cleaned => none
  | .ok (.uncleanable language) => some (.uncleanable path language)
  | .error f => some (.failed path f)

/-- Cleans the file at a path, and says whether that went well. -/
def processPath (c : Cleaner) (overwrite : Bool) (path : Path) : Attempt Bool := do
  if isSupported path then
    let result ← ((Batch.jobFor overwrite path).run c).caught
    match complaint? path result with
    | none => pure true
    | some complaint =>
      .tell complaint
      pure false
  else
    .tell (.unsupported path)
    pure false

/-- Cleans the files at some paths, and says how many of them failed. -/
def processAll (c : Cleaner) (overwrite : Bool) : List Path → Attempt Nat
  | [] => pure 0
  | path :: paths => do
    let well ← processPath c overwrite path
    let failures ← processAll c overwrite paths
    pure (if well then failures else failures + 1)

/-- The exit code of a run. -/
def exitCode : Except Failure Nat → Nat
  | .ok 0 => 0
  | _ => 1

end NotebookTidy.Cli
