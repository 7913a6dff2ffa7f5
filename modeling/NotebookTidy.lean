import NotebookTidy.Main
import NotebookTidy.Notebook.File
import NotebookTidy.Proofs.Cell.Result
import NotebookTidy.Proofs.Cleaner.Result
import NotebookTidy.Proofs.Cleaner.Decision
import NotebookTidy.Proofs.Cell.Frame
import NotebookTidy.Proofs.Cleaner.Survivors
import NotebookTidy.Proofs.Cleaner.Invariant
import NotebookTidy.Proofs.Cleaner.InPlace
import NotebookTidy.Proofs.Json.Integers
import NotebookTidy.Proofs.Json.Parts
import NotebookTidy.Proofs.Json.Strings
import NotebookTidy.Proofs.Json.RoundTrip
import NotebookTidy.Proofs.Formatter.Magics
import NotebookTidy.Proofs.Files.Filled
import NotebookTidy.Proofs.Files.Sibling
import NotebookTidy.Proofs.Job.Effect
import NotebookTidy.Proofs.Job.Frame
import NotebookTidy.Proofs.Json.Read
import NotebookTidy.Proofs.Cleaner.Twice
import NotebookTidy.Proofs.Job.Twice
import NotebookTidy.Proofs.Decimal.Shortest
import NotebookTidy.Proofs.Json.Numerals
import NotebookTidy.Proofs.Json.Doubles
import NotebookTidy.Proofs.Json.Fixed
import NotebookTidy.Proofs.Decimal.Nearest
import NotebookTidy.Proofs.Json.Scaling
import NotebookTidy.Proofs.Agreement
import NotebookTidy.Proofs.Cleaner.Selected
import NotebookTidy.Proofs.Job.Turns
import NotebookTidy.Proofs.Batch.Turns
import NotebookTidy.Proofs.Batch.Inputs
import NotebookTidy.Proofs.Batch.Apart
import NotebookTidy.Proofs.Job.Beside
import NotebookTidy.Proofs.Json.Ascii
import NotebookTidy.Proofs.Formatter.Twice
import NotebookTidy.Proofs.Formatter.Pipeline
import NotebookTidy.Proofs.Cell.Visits
import NotebookTidy.Proofs.Cleaner.Canonical
import NotebookTidy.Proofs.Files.Cleaned
import NotebookTidy.Proofs.Job.Script
import NotebookTidy.Proofs.Batch.Session
import NotebookTidy.Proofs.Json.Grammar
import NotebookTidy.Proofs.Json.Passing
import NotebookTidy.Proofs.Config.Parts
import NotebookTidy.Proofs.Config.Inline
import NotebookTidy.Proofs.Cli.Arguments
import NotebookTidy.Proofs.Config.Support
import NotebookTidy.Proofs.Cli.Run
import NotebookTidy.Proofs.Cell.Tally
import NotebookTidy.Proofs.Formatter.Inverse
import NotebookTidy.Proofs.Json.Accepted
