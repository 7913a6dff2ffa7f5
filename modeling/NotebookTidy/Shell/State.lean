import NotebookTidy.Files.Tree
import NotebookTidy.Shell.Arithmetic
import NotebookTidy.Shell.Grammar
import NotebookTidy.Shell.Signal

/-! The state of a shell.

A descriptor is the number of a channel, and channels are shared: descriptors that were made
the same read from the same place of a file, and write after one another. A shell that
another one starts for part of its work takes a copy of all this; of what it did, only the
files and the channels are left when it ends. -/
namespace NotebookTidy.Shell
open Files

inductive Channel where
  /-- The end of a pipe from which what is left in it can be read. -/
  | source (rest : Bytes)
  /-- The end of a pipe that takes what is written, the last part first. -/
  | sink (chunks : List Bytes)
  | file (l : Location) (offset : Nat) (access : Access)
  | device (d : Device) (access : Access)
  | directory (l : Location)

structure Variable where
  value : Option String
  exported : Bool
  readOnly : Bool
deriving DecidableEq, Repr

/-- What comes after a command. -/
inductive Flow where
  | next
  | exits
  /-- The shell ends because of an error, unless that is made up for. -/
  | fails
  /-- The function ends, or the script; whether a status was given for it. -/
  | returns (given : Bool)
  /-- A signal has ended the process. -/
  | killed (signal : Nat)
  /-- A user has broken off what the shell does, which asks for its commands. -/
  | interrupted
  /-- The process goes on for ever. -/
  | endless
  | breaks (loops : Nat)
  | continues (loops : Nat)
deriving DecidableEq, Repr

/-- A command that was started in the background. It is run at once, but nobody knows that it
has ended before that is asked for, or another command has been waited for. -/
structure Job where
  /-- Its place in the table of such commands, the first one being zero. -/
  place : Nat
  /-- The numbers of the processes of its pipeline. -/
  processes : List Nat
  status : Nat
  /-- The signal that has ended it. -/
  signal : Option Nat
  /-- It does not end of itself. -/
  endless : Bool
  /-- Nobody knows of its end. -/
  running : Bool
  /-- Its status has been asked for. -/
  waited : Bool

/-- The process that counts for the status. -/
def Job.lastProcess (j : Job) : Nat := j.processes.getLast?.getD 0

/-- The same, when it has had time to end. -/
def Job.settled (j : Job) : Job := { j with running := j.endless }

/-- What is put back when a function ends: a variable, which may not have been there, or
the options of the shell. -/
inductive Hidden where
  | variable (name : String) (old : Option Variable)
  | options (old : List Char)

structure State where
  tree : Tree
  channels : Array Channel
  descriptors : List (Nat × Nat)
  bindings : List (String × Variable)
  functions : List (String × Command)
  name : String
  arguments : List String
  options : List Char
  status : Nat
  /-- The status of the last command whose output was taken. -/
  outputStatus : Nat
  line : Nat
  /-- The end of a script was the last thing that was read of scripts. -/
  metEnd : Bool
  /-- What is shown in front of a command that is traced is being expanded. Nothing else is
  traced then. -/
  tracing : Bool
  /-- The command that is part of the shell and is being run. -/
  builtin : Option String
  flow : Flow
  loops : Nat
  /-- What is to be put back when the commands end that are being run. -/
  hidden : List (List Hidden)
  /-- What is to be done at signals, and at the end of the shell, which is number zero. -/
  traps : List (Nat × String)
  /-- The signals that no notice is taken of, whatever is asked for. -/
  deaf : List Nat
  /-- The signals that have come and for which something is still to be done. -/
  pending : List Nat
  /-- The status from before what is done at a signal, or at the end of the shell. -/
  statusBefore : Option Nat
  /-- The number of the process. -/
  process : Nat
  /-- The number by which the shell knows itself, also in the processes it starts. -/
  shellProcess : Nat
  /-- The processes that wait for this one to end. -/
  parents : List Nat
  /-- How many processes there have been. -/
  processes : Nat
  /-- The signals that were sent to processes that wait: the numbers of both. -/
  sent : List (Nat × Nat)
  documents : Array Word
  aliases : List (String × String)
  /-- The number of the argument in which options are looked for next. -/
  optionIndex : Nat
  /-- How many characters of an argument with options have been gone through. -/
  optionPlace : Nat
  /-- The lines up to which scripts have been read that are not at their end, the innermost
  script first. -/
  readers : List Nat
  /-- How many functions are being called. -/
  calls : Nat
  /-- How often a loop may go round before it counts as endless. -/
  patience : Nat
  /-- The names of the programs that have been looked up. -/
  hashed : List String
  /-- The commands that were started in the background, the last one first. -/
  jobs : List Job
  /-- The process of the command that was last started in the background. -/
  lastJob : Option Nat
  /-- The permissions that new files are not given. -/
  mask : Nat
  /-- The limits that were set: the option, and the limit that counts and the one up to
  which it may be raised. -/
  limits : List (Char × Option Nat × Option Nat)
  /-- The path of the working directory as it was walked, links and all. -/
  walked : String

namespace State

/-! ### Channels -/

def channel? (s : State) (descriptor : Nat) : Option (Nat × Channel) := do
  let (_, i) ← s.descriptors.find? (·.1 == descriptor)
  let c ← s.channels[i]?
  return (i, c)

def connect (s : State) (descriptor channel : Nat) : State :=
  { s with descriptors := (descriptor, channel) :: s.descriptors.filter (·.1 != descriptor) }

def disconnect (s : State) (descriptor : Nat) : State :=
  { s with descriptors := s.descriptors.filter (·.1 != descriptor) }

def addChannel (s : State) (c : Channel) : Nat × State :=
  (s.channels.size, { s with channels := s.channels.push c })

def setChannel (s : State) (i : Nat) (c : Channel) : State :=
  { s with channels := s.channels.setIfInBounds i c }

/-- What was written to a channel. -/
def written (s : State) (i : Nat) : Bytes :=
  match s.channels[i]? with
  | some (.sink chunks) => chunks.reverse.flatten
  | _ => []

end State

def Access.reads : Access → Bool
  | .read | .both => true
  | _ => false

def Access.writes (a : Access) : Bool := a != .read

def contentAt (t : Tree) (l : Location) : Bytes :=
  match t.lookup l with
  | some (.file content) => content
  | _ => []

/-- Puts bytes over others from a place on, with zeros up to it. -/
def overwriteAt (content : Bytes) (offset : Nat) (bytes : Bytes) : Bytes :=
  content.take offset ++ List.replicate (offset - content.length) 0 ++ bytes
    ++ content.drop (offset + bytes.length)

/-- Why a descriptor cannot be read from or written to. -/
inductive ChannelFault where
  | badDescriptor
  | isADirectory
  | noSpace
deriving DecidableEq, Repr

def ChannelFault.reason : ChannelFault → String
  | .badDescriptor => "Bad file descriptor"
  | .isADirectory => "Is a directory"
  | .noSpace => "No space left on device"

namespace State

/-- Writes bytes. -/
def write (s : State) (descriptor : Nat) (bytes : Bytes) : Except ChannelFault State :=
  match s.channel? descriptor with
  | some (i, .sink chunks) => .ok (s.setChannel i (.sink (bytes :: chunks)))
  | some (i, .file l offset access) =>
    if !access.writes then .error .badDescriptor
    else
      let content := contentAt s.tree l
      let offset := if access = .append then content.length else offset
      let tree := s.tree.put l (.file (overwriteAt content offset bytes))
      .ok ({ s with tree := tree }.setChannel i (.file l (offset + bytes.length) access))
  | some (_, .device d access) =>
    if !access.writes then .error .badDescriptor
    else if d = .full ∧ !bytes.isEmpty then .error .noSpace
    else .ok s
  | _ => .error .badDescriptor

/-- Writes bytes if that is possible. -/
def tryWrite (s : State) (descriptor : Nat) (bytes : Bytes) : State :=
  match s.write descriptor bytes with
  | .ok s => s
  | .error _ => s

/-- What is left to read. -/
def unread (s : State) (descriptor : Nat) : Except ChannelFault Bytes :=
  match s.channel? descriptor with
  | some (_, .source rest) => .ok rest
  | some (_, .file l offset access) =>
    if access.reads then .ok ((contentAt s.tree l).drop offset) else .error .badDescriptor
  | some (_, .device _ access) => if access.reads then .ok [] else .error .badDescriptor
  | some (_, .directory _) => .error .isADirectory
  | _ => .error .badDescriptor

/-- Goes on by so many bytes. -/
def advance (s : State) (descriptor n : Nat) : State :=
  match s.channel? descriptor with
  | some (i, .source rest) => s.setChannel i (.source (rest.drop n))
  | some (i, .file l offset access) => s.setChannel i (.file l (offset + n) access)
  | _ => s

/-- Reads all that is left. -/
def readAll (s : State) (descriptor : Nat) : Except ChannelFault (Bytes × State) := do
  let bytes ← s.unread descriptor
  return (bytes, s.advance descriptor bytes.length)

/-! ### Opening files -/

def pathOf (name : String) : Path := ⟨textBytes name⟩

/-- Where a device is found. -/
def deviceLocation (d : Device) : Location :=
  let name := match d with
    | .null => "null"
    | .full => "full"
    | .endless => "zero"
    | .terminal => "tty"
  [Text.encode "dev", Text.encode name]

/-- The descriptor that a path is another name of. -/
def descriptorNamed? (name : String) : Option Nat :=
  match name with
  | "/dev/stdin" => some 0
  | "/dev/stdout" => some 1
  | "/dev/stderr" => some 2
  | _ =>
    if "/dev/fd/".isPrefixOf name then
      let digits := name.toList.drop 8
      if !digits.isEmpty && digits.all Char.isDigit then (String.ofList digits).toNat? else none
    else none

/-- Opens the entry at a location. -/
def openAt (s : State) (l : Location) (access : Access) : Except IoError (Nat × State) :=
  match s.tree.lookup l with
  | some .directory =>
    if access = .read then .ok (s.addChannel (.directory l)) else .error .isADirectory
  | some (.device .terminal) => .error .noDevice
  | some (.device d) => .ok (s.addChannel (.device d access))
  | found =>
    let empties := access = .write ∨ access = .overwrite
    let tree := if found.isNone || empties then s.tree.put l (.file []) else s.tree
    .ok ({ s with tree := tree }.addChannel (.file l 0 access))

/-- Opens a file, and makes it if it is to be written and not there. -/
def openFile (s : State) (name : String) (access : Access) : Except IoError (Nat × State) :=
  match descriptorNamed? name with
  | some d =>
    match s.channel? d with
    | some (_, .file l _ _) => s.openAt l access
    | some (i, _) => .ok (i, s)
    | none => .error .notFound
  | none => do
    let l ← if access = .read then s.tree.resolve (pathOf name)
      else s.tree.creatable (pathOf name)
    s.openAt l access

/-! ### Complaints -/

/-- Writes a message. -/
def tell (s : State) (message : String) : State := s.tryWrite 2 (textBytes message)

/-- Tells what is wrong. -/
def complain (s : State) (what : String) : State :=
  let command := match s.builtin with
    | some b => b ++ ": "
    | none => ""
  s.tell (s.name ++ ": " ++ toString s.line ++ ": " ++ command ++ what ++ "\n")

/-! ### Variables -/

def binding? (s : State) (name : String) : Option Variable :=
  (s.bindings.find? (·.1 == name)).map Prod.snd

def value? (s : State) (name : String) : Option String := (s.binding? name).bind Variable.value

def putVariable (s : State) (name : String) (v : Variable) : State :=
  if s.bindings.any (·.1 == name) then
    { s with bindings := s.bindings.map fun x => if x.1 = name then (name, v) else x }
  else { s with bindings := s.bindings ++ [(name, v)] }

def dropVariable (s : State) (name : String) : State :=
  { s with bindings := s.bindings.filter (·.1 != name) }

def has (s : State) (option : Char) : Bool := s.options.contains option

/-- A number of things, from its text. -/
def countText? (text : String) : Option Nat :=
  (integerText? false text).bind fun n =>
    if 0 ≤ n ∧ n ≤ 2147483647 then some n.toNat else none

/-- Takes notice of the value of a variable that has a meaning to the shell itself. -/
def noteValue (s : State) (name value : String) : State :=
  if name = "OPTIND" then
    { s with optionIndex := max 1 ((countText? value).getD 1), optionPlace := 0 }
  else if name = "PATH" then { s with hashed := [] }
  else s

/-- What speaks against a value of a variable. -/
def valueFault? (s : State) (name value : String) : Option String :=
  if (s.binding? name).any Variable.readOnly then some (name ++ ": is read only")
  else if name = "OPTIND" ∧ (countText? value).isNone then some ("Illegal number: " ++ value)
  else none

/-- Gives a variable a value, or says why it cannot have it. -/
def assign (s : State) (name value : String) : Except String State :=
  match s.valueFault? name value with
  | some what => .error what
  | none =>
    let v := (s.binding? name).getD ⟨none, s.has 'a', false⟩
    .ok ((s.noteValue name value).putVariable name
      { v with value := some value, exported := v.exported || s.has 'a' })

/-- The characters at which the values of words are split. -/
def separators (s : State) : List Char :=
  match s.value? "IFS" with
  | some ifs => ifs.toList
  | none => [' ', '\t', '\n']

/-- What is put between arguments that become one text. -/
def joint (s : State) : String :=
  match s.value? "IFS" with
  | some ifs => String.ofList (ifs.toList.take 1)
  | none => " "

/-- The options that are set, as a parameter shows them. -/
def optionLetters (s : State) : String :=
  String.ofList (("pubaCEVvxsnmiIfe".toList).filter s.has)

/-- The value of a parameter that is no list of arguments. -/
def parameter? (s : State) (name : String) : Option String :=
  match name with
  | "#" => some (toString s.arguments.length)
  | "?" => some (toString s.status)
  | "-" => some s.optionLetters
  | "$" => some (toString s.shellProcess)
  | "!" => s.lastJob.map toString
  | _ =>
    match name.toNat? with
    | some 0 => some s.name
    | some (n + 1) => s.arguments[n]?
    | none => s.value? name

end State

end NotebookTidy.Shell
