import NotebookTidy.Command
import NotebookTidy.Failure
import NotebookTidy.Files.Path

/-! What happens while files are cleaned.

Events are told in the order in which they happen, whether or not anyone looks at
them; what becomes of them in a log is another matter. -/
namespace NotebookTidy
open Files

inductive Event where
  | copied (source target : Path)
  | formatterStarted (command : Command) (input : String)
  /-- It was asked whether the optional toolchain is there. -/
  | toolchainAsked
  | probeFinished (program : String) (status : Nat)
  | probeNotStarted (program : String) (e : IoError)
  | cellDropped (index : Nat)
  | cellsCleaned (language : String) (cells dropped : Nat)
  | notebookCleaned (path : Path)
  /-- A notebook whose language has no formatter. -/
  | notebookLeft (path : Path) (language : String)
  | scriptCleaned (path : Path)
  /-- A path of the command line that names neither a notebook nor a script. -/
  | unsupported (path : Path)
  | uncleanable (path : Path) (language : String)
  | failed (path : Path) (failure : Failure)
deriving DecidableEq

end NotebookTidy
