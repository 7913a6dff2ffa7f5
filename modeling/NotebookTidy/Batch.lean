import NotebookTidy.Job

/-! Cleaning many files.

Files with the extension `py` are scripts, and all others notebooks. Each file is
cleaned on its own, whatever comes of the others. There is one result for each path:
paths with the same components are the same path, the first of them is the one that is
shown, and the last result is the one that counts. -/
namespace NotebookTidy
open Files

namespace Batch

/-- The job for a path: its extension tells what the file holds. -/
def jobFor (overwrite : Bool) (path : Path) : Job :=
  ⟨path, if path.hasExtension "py" then .script else .notebook, overwrite⟩

abbrev Results := List (Path × Result)

/-- Enters the result for a path. -/
def record : Results → Path → Result → Results
  | [], path, result => [(path, result)]
  | (p, r) :: results, path, result =>
    if p.components = path.components then (p, result) :: results
    else (p, r) :: record results path result

/-- Runs jobs one after the other, each on the files that the ones before it left. -/
def runFrom (c : Cleaner) (results : Results) : List Job → Attempt Results
  | [] => pure results
  | job :: jobs => do
    let result ← (job.run c).caught
    runFrom c (record results job.path result) jobs

/-- Cleans the files at some paths. -/
def cleanAll (c : Cleaner) (overwrite : Bool) (paths : List Path) : Attempt Results :=
  runFrom c [] (paths.map (jobFor overwrite))

end Batch
end NotebookTidy
