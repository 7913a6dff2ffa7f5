import NotebookTidy.Shell.Concatenate
import NotebookTidy.Shell.Condition
import NotebookTidy.Shell.Translate

/-! The programs that a shell can start, besides a shell itself.

A program finds its input and its output where the descriptors are connected to. It says
what is wrong in its own name, and gives the status with which it ended. -/
namespace NotebookTidy.Shell
open Files

/-- The programs that there are. -/
inductive Program where
  | shell
  | concatenate
  | translate
  | succeed
  | fail
deriving DecidableEq, Repr

/-- The programs by the names of their files. -/
def programNames : List (String × Program) :=
  [("dash", .shell), ("cat", .concatenate), ("tr", .translate), ("true", .succeed),
    ("false", .fail)]

/-- The program at a location. No other file can be run. -/
def programAt? (l : Location) : Option Program :=
  if programDirectories.contains l.dropLast then
    (programNames.find? fun p => l.getLast? == some (Text.encode p.1)).map Prod.snd
  else none

/-- Why a program cannot be started: the status that this counts as, and the reason. -/
structure StartFault where
  status : Nat
  reason : String
deriving DecidableEq, Repr

namespace State

/-- The program at a path. -/
def programAtPath (s : State) (path : String) : Except StartFault Program :=
  if (descriptorNamed? path).isSome && (s.kind? path).isSome then
    .error ⟨126, "Permission denied"⟩
  else match s.tree.resolve (pathOf path) with
  | .error .nameTooLong => .error ⟨126, "File name too long"⟩
  | .error _ => .error ⟨127, "not found"⟩
  | .ok l =>
    match programAt? l with
    | some p => .ok p
    | none => .error ⟨126, "Permission denied"⟩

/-- The directories in which programs are looked up. -/
def searchPath (s : State) : List String :=
  (Text.splitAt ':' ((s.value? "PATH").getD "").toList).map String.ofList

/-- A name in a directory, the empty one being the working directory. -/
def inDirectory (directory name : String) : String :=
  if directory = "" then name else directory ++ "/" ++ name

/-- The directories in which programs are looked up that have to be there. -/
def usualPath : List String :=
  ["/usr/local/sbin", "/usr/local/bin", "/usr/sbin", "/usr/bin", "/sbin", "/bin"]

/-- The path of a program that is looked up in some directories, and the program. -/
def findProgram (s : State) (directories : List String) (name : String) :
    Except StartFault (String × Program) :=
  if name.contains '/' then (s.programAtPath name).map (name, ·)
  else
    let paths := directories.map (inDirectory · name)
    let found := paths.map fun path => (path, s.programAtPath path)
    match found.findSome? fun (path, r) => r.toOption.map (path, ·) with
    | some p => .ok p
    | none =>
      let refused := found.any fun (_, r) => match r with
        | .error f => f.status == 126
        | .ok _ => false
      .error ⟨127, if refused then "Permission denied" else "not found"⟩

/-- Takes note that a program has been looked up. -/
def remember (s : State) (name : String) : State :=
  if name.contains '/' || s.hashed.contains name then s
  else { s with hashed := s.hashed ++ [name] }

/-- Takes note of a program if it is there. -/
def lookUp (s : State) (name : String) : State :=
  if (s.findProgram s.searchPath name).toOption.isSome then s.remember name else s

end State

/-! ### Concatenation -/

def readReason : IoError → String
  | .notFound => "No such file or directory"
  | .notADirectory => "Not a directory"
  | .isADirectory => "Is a directory"
  | .nameTooLong => "File name too long"
  | .noDevice => "No such device or address"
  | _ => "Permission denied"

/-- Where a run of concatenation stands. -/
structure Concatenation where
  state : State
  position : Position
  status : Nat
  /-- The output could not be written. -/
  broken : Bool

namespace Concatenation

def complain (r : Concatenation) (what : String) : Concatenation :=
  { r with state := r.state.tell what, status := 1 }

/-- Writes bytes, if there are any. -/
def write (program : String) (r : Concatenation) (bytes : Bytes) : Concatenation :=
  if bytes.isEmpty || r.broken then r
  else match r.state.write 1 bytes with
    | .ok s => { r with state := s }
    | .error f =>
      { r.complain (program ++ ": write error: " ++ f.reason ++ "\n") with broken := true }

/-- Whether what is written would be read again. -/
def readsItsOutput (s : State) (input : Channel) : Bool :=
  match input, s.channel? 1 with
  | .file l place _, some (_, .file m offset access) =>
    let reached := if access = .append then (contentAt s.tree m).length else offset
    l == m && place < reached
  | _, _ => false

/-- Reads all of a descriptor, which has a name in messages, and writes it. -/
def copy (program : String) (d : Display) (r : Concatenation) (name : String)
    (descriptor : Nat) : Concatenation :=
  match r.state.channel? descriptor with
  | none => r.complain (program ++ ": " ++ shownName name ++ ": Bad file descriptor\n")
  | some (_, input) =>
    if readsItsOutput r.state input then
      r.complain (program ++ ": " ++ shownName name ++ ": input file is output file\n")
    else match r.state.readAll descriptor with
      | .error f => r.complain (program ++ ": " ++ shownName name ++ ": " ++ f.reason ++ "\n")
      | .ok (bytes, s) =>
        let (out, position) := d.show r.position bytes
        write program { r with state := s, position := position } out

/-- The descriptor that files are opened at for a while. -/
def spareDescriptor : Nat := 1000

def copyFile (program : String) (d : Display) (r : Concatenation) (file : String) :
    Concatenation :=
  if r.broken then r
  else if file = "-" then copy program d r file 0
  else match r.state.openFile file .read with
    | .error e => r.complain (program ++ ": " ++ shownName file ++ ": " ++ readReason e ++ "\n")
    | .ok (i, s) =>
      let r := copy program d { r with state := s.connect spareDescriptor i } file spareDescriptor
      { r with state := r.state.disconnect spareDescriptor }

end Concatenation

/-- Writes files one after the other; a hyphen stands for the input. -/
def concatenate (program : String) (args : List String) (s : State) : State :=
  match Display.optionTable.parse args with
  | .error what => { s.tell (usageComplaint program what) with status := 1 }
  | .ok (letters, files) =>
    if letters.contains OptionTable.aboutItself then { s with status := 0 }
    else if (s.channel? 1).isNone then
      { s.tell (program ++ ": standard output: Bad file descriptor\n") with status := 1 }
    else
      let files := if files.isEmpty then ["-"] else files
      let d := Display.ofLetters letters
      let r := files.foldl (Concatenation.copyFile program d) ⟨s, .start, 0, false⟩
      let r := r.write program r.position.rest
      let r :=
        if !r.broken && files.contains "-" && (s.channel? 0).isNone then
          r.complain (program ++ ": closing standard input: Bad file descriptor\n")
        else r
      { r.state with status := r.status }

/-! ### Translation -/

/-- Reads the input, and writes it changed as a call says. -/
def translateInput (program : String) (call : TranslateCall) (s : State) : State :=
  let failing (s : State) (what : String) : State :=
    { s.tell (program ++ ": " ++ what ++ "\n") with status := 1 }
  let s := call.warnings.foldl (fun s w => s.tell (program ++ ": " ++ w ++ "\n")) s
  match call.change with
  | .error what => failing s what
  | .ok change =>
    match s.readAll 0 with
    | .error f => failing s ("read error: " ++ f.reason)
    | .ok (bytes, s) =>
      let out := change.apply bytes
      if out.isEmpty then { s with status := 0 }
      else match s.write 1 out with
        | .ok s => { s with status := 0 }
        | .error f => failing s ("write error: " ++ f.reason)

/-- Translates the input. -/
def translate (program : String) (args : List String) (s : State) : State :=
  match TranslateOptions.table.parse args with
  | .error what => { s.tell (usageComplaint program what) with status := 1 }
  | .ok (letters, sets) =>
    let o := TranslateOptions.ofLetters letters
    if letters.contains OptionTable.aboutItself then { s with status := 0 }
    else match operandFault? o sets with
      | some what => { s.tell (usageComplaint program what) with status := 1 }
      | none => translateInput program (translateCall o sets) s

end NotebookTidy.Shell
