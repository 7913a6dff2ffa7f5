import NotebookTidy.Shell.Concatenate
import NotebookTidy.Shell.Condition
import NotebookTidy.Shell.Expand

/-! Redirections.

The names of all redirections are expanded before the first descriptor is connected; the text
of a document is expanded when its turn comes. What was connected before is put back when the
command has ended, descriptor by descriptor. -/
namespace NotebookTidy.Shell
open Files

/-- A redirection whose names have been expanded. -/
inductive Connection where
  | file (descriptor : Nat) (access : Access) (name : String)
  | same (descriptor : Nat) (other : Option Nat)
  | document (descriptor : Nat) (text : Word)

def Connection.descriptor : Connection → Nat
  | .file d _ _ | .same d _ | .document d _ => d

def openReason (access : Access) : IoError → String
  | .notFound | .notADirectory => if access = .read then "No such file" else "Directory nonexistent"
  | .isADirectory => "Is a directory"
  | .nameTooLong => "File name too long"
  | .noDevice => "No such device or address"
  | _ => "Permission denied"

namespace State

/-- Connects a descriptor to another one, or to nothing. -/
def share (s : State) (d : Nat) : Option Nat → Except String State
  | none => .ok (s.disconnect d)
  | some other =>
    if d = other then .ok s
    else match s.channel? other with
      | some (i, _) => .ok (s.connect d i)
      | none => .error (toString other ++ ": Bad file descriptor")

/-- Connects a descriptor to a file. An option keeps files from being emptied. -/
def connectFile (s : State) (d : Nat) (access : Access) (name : String) : Except String State :=
  let kept := if access = .write && s.has 'C' then s.kind? name else none
  match kept with
  | some (.regular _ _) => .error ("cannot create " ++ name ++ ": File exists")
  | _ =>
    match s.openFile name access with
    | .ok (i, s) => .ok (s.connect d i)
    | .error e =>
      let verb := if access = .read || kept.isSome then "open" else "create"
      .error ("cannot " ++ verb ++ " " ++ name ++ ": " ++ openReason access e)

/-- Connects descriptors as they were in an earlier state. -/
def reconnect (s before : State) (cs : List Connection) : State :=
  let touched (d : Nat) := cs.any (·.descriptor == d)
  { s with descriptors := before.descriptors.filter (touched ·.1)
      ++ s.descriptors.filter (!touched ·.1) }

end State

section Expansion
variable (evaluate : Evaluator) (fuel : Nat)

/-- Expands the word of a redirection. -/
def connection : Redirection → Act Connection
  | .file d access name => return .file d access (← expandText evaluate fuel name)
  | .same d w => do
    let text ← expandText evaluate fuel w
    match digit? text with
    | some other => return .same d (some other)
    | none =>
      if text = "-" then return .same d none
      else Act.failReading "Bad fd number"
  | .document d place => return .document d ((← get).documents[place]?.getD (.mk []))

def connections (rs : List Redirection) : Act (List Connection) :=
  rs.mapM (connection evaluate fuel)

/-- Connects a descriptor. Where `frees` is set, it is closed before it becomes the same as
another one: if that is not open, and messages go to the descriptor, nobody is told. -/
def connectOne (frees : Bool) (c : Connection) : Act Unit := do
  let s ← get
  match c with
  | .file d access name =>
    match s.connectFile d access name with
    | .ok t => set t
    | .error what => Act.fail what
  | .same d other =>
    match s.share d other with
    | .ok t => set t
    | .error what =>
      if frees then set (s.disconnect d)
      Act.fail what
  | .document d w =>
    let ss ← expandWord evaluate fuel ⟨false, true, .nowhere⟩ false w
    let (i, t) := (← get).addChannel (.source (textBytes (joinText ss)))
    set (t.connect d i)

/-- Connects descriptors, after others. Whether they are put back later says whether each is
closed when it is connected for the first time. -/
def connectEach (putBack : Bool) : (before : List Nat) → List Connection → Act Unit
  | _, [] => return ()
  | before, c :: cs => do
    connectOne evaluate fuel (putBack && !before.contains c.descriptor) c
    connectEach putBack (c.descriptor :: before) cs

/-- Connects descriptors. If one cannot be, this is told, and the rest is left. -/
def connectAll (putBack : Bool) (cs : List Connection) (s : State) : Bool × State :=
  let (done, t) := (connectEach evaluate fuel putBack [] cs).run s
  (done.isSome, t)

end Expansion
end NotebookTidy.Shell
