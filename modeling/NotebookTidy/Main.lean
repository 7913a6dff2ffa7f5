import NotebookTidy.Cli.Run
import NotebookTidy.Shell.Standard

/-! The command line program.

The files that the arguments name are looked at before the run, and those that the run
changed are written after it. The programs that can be started are those of the
library's own shell. -/
namespace NotebookTidy.Main
open Files

/-- What there is at a path of the real file system. -/
def look (path : String) : IO (Option Entry) := do
  try
    let content ← IO.FS.readBinFile path
    return some (.file content.data.toList)
  catch e =>
    match e with
    | .inappropriateType .. => return some .directory
    | _ => return none

/-- The paths of everything on the way to a path, the path itself last. -/
def waypoints (path : Path) : List Path :=
  let pieces := path.pieces
  (List.range pieces.length).map fun n => Path.ofPieces (pieces.take (n + 1))

/-- Enters what there is at a path, and on the way to it. -/
def observe (t : Tree) (path : Path) : IO Tree := do
  let mut t := t
  for p in waypoints path do
    if let some e ← look (Text.decodeLossy p.bytes) then
      if let .ok parent := t.walk (t.origin p) p.pieces.dropLast then
        if let some name := p.pieces.getLast? then
          if !isIdle name && name != above then
            t := t.put (parent ++ [name]) e
  return t

/-- The paths that a run may read or write. -/
def pathsOf (args : List String) : List Path :=
  (args.map Path.ofString).flatMap fun p => [p, p.cleaned]

def writeFile (path : Path) (content : Bytes) : IO Unit :=
  IO.FS.writeBinFile (Text.decodeLossy path.bytes) ⟨content.toArray⟩

/-- Writes the file at a path if its content is not what it was. -/
def writeBack (before after : Tree) (path : Path) : IO Unit := do
  match before.read path, after.read path with
  | .ok old, .ok new =>
    if old != new then writeFile path new
  | .error _, .ok new => writeFile path new
  | _, _ => return

def runHere (args : List String) : IO UInt32 := do
  let paths := pathsOf args
  let before ← paths.foldlM observe Shell.standardTree
  let out := Cli.run Shell.start .jsonAndToml (← IO.getEnv "RUST_LOG") args before
  paths.forM (writeBack before out.tree)
  out.stdout.forM IO.println
  out.stderr.forM IO.eprintln
  return UInt32.ofNat out.code

end NotebookTidy.Main

def main (args : List String) : IO UInt32 := NotebookTidy.Main.runHere args
