import NotebookTidy.Shell.Programs
import NotebookTidy.Shell.Variables

/-! The working directory.

The shell keeps the path by which it came to the directory, which may lead over links. A
pair of dots goes back on that path, unless the directory itself is asked for. -/
namespace NotebookTidy.Shell
open Files

/-- A location as a path from the root. -/
def locationText (l : Location) : String :=
  if l.isEmpty then "/" else String.join (l.map fun name => "/" ++ String.ofList (octetsOf name))

/-- The path of the working directory without links. -/
def State.directory (s : State) : String := locationText s.tree.workDir

/-- Takes a step on a path whose pieces are in reverse. -/
def walkPiece (back : List String) (piece : String) : List String :=
  if piece = "" ∨ piece = "." then back else if piece = ".." then back.drop 1 else piece :: back

/-- The path of a directory that is gone to from another one. A pair of slashes in front
stays. -/
def walkedPath (directory path : String) : String :=
  let pieces (s : String) := (Text.splitAt '/' s.toList).map String.ofList
  let whole := if path.startsWith "/" then path else directory
  let start := if whole.startsWith "//" && !whole.startsWith "///" then "//" else "/"
  let origin := if path.startsWith "/" then [] else pieces directory
  start ++ "/".intercalate ((origin ++ pieces path).foldl walkPiece []).reverse

/-- Whether the last one of the options asks for the directory itself. -/
def Act.asksForItself (args : List String) : Act (Bool × List String) := do
  let (given, args) ← Act.options ['L', 'P'] args
  return (given.getLast? = some 'P', args)

/-- Goes to a directory, if that is possible. -/
def State.goTo (s : State) (itself : Bool) (path : String) : Option State :=
  let target := if itself then path else walkedPath s.walked path
  match s.tree.resolve (State.pathOf target) with
  | .error _ => none
  | .ok l =>
    if s.tree.lookup l = some .directory then
      some { s with
        tree := { s.tree with workDir := l }
        walked := if itself then locationText l else target }
    else none

/-- The paths under which a directory is looked for, and whether it is shown where it was
found. -/
def candidates (s : State) (path : String) : List (String × Bool) :=
  let first := ((Text.splitAt '/' path.toList).head?.map String.ofList).getD ""
  if path.startsWith "/" || first == "." || first == ".." then [(path, false)]
  else
    let path := if path = "" then "." else path
    let listed := match s.value? "CDPATH" with
      | none => []
      | some list =>
        (Text.splitAt ':' list.toList).map fun directory =>
          (State.inDirectory (String.ofList directory) path, !directory.isEmpty)
    let found := listed.filter fun c => s.kind? c.1 == some .directory
    found.take 1 ++ [(path, false)]

def changeDirectory (args : List String) : Act Nat := do
  let (itself, args) ← Act.asksForItself args
  let s ← get
  let named := args.head?.getD ((s.value? "HOME").getD "")
  let back := args.head? = some "-"
  let named := if back then (s.value? "OLDPWD").getD "" else named
  let (path, shows) := (candidates s named).head?.getD (named, false)
  match s.goTo itself path with
  | none => Act.fail ("can't cd to " ++ (if named = "" then "." else named))
  | some t =>
    set t
    Act.assign "OLDPWD" s.walked
    modify (State.exportVariable · "OLDPWD")
    Act.assign "PWD" t.walked
    modify (State.exportVariable · "PWD")
    if back || shows then Act.printText "cd" (t.walked ++ "\n") else return 0

def showDirectory (args : List String) : Act Nat := do
  let (itself, _) ← Act.asksForItself args
  let s ← get
  Act.printText "pwd" ((if itself then s.directory else s.walked) ++ "\n")

end NotebookTidy.Shell
