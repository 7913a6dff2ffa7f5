import NotebookTidy.Shell.Process
import NotebookTidy.Shell.Reader

/-! Running the text of a script.

How a command is run is given from outside. A line of the script is run before the next one
is read; where the script comes from a file or from the input, text is read page by page, as
it is needed. -/
namespace NotebookTidy.Shell

/-- Where a command stands. -/
structure Standing where
  /-- The command may fail without ending the shell. -/
  tested : Bool
  /-- Nothing comes after the command in its process. -/
  last : Bool
deriving DecidableEq, Repr

namespace Standing

/-- One command among others, the failure of which counts. -/
def plain : Standing := ⟨false, false⟩

/-- A command whose failure decides what comes next. -/
def test : Standing := ⟨true, false⟩

/-- Something else comes after the command. -/
def notLast (m : Standing) : Standing := { m with last := false }

end Standing

/-- Runs a command. -/
abbrev Evaluator := Standing → Command → State → State

/-! ### Reading -/

/-- Where a script is read from, besides the text that is there. -/
structure Feed where
  /-- The descriptor from which more text comes. Such lines may be shown when they are read. -/
  descriptor : Option Nat
  /-- How a prompt is expanded, if each command is asked for in a shell that does so. -/
  prompt : Option (String → State → String × State)

/-- A script that is there as a whole. -/
def Feed.none : Feed := ⟨.none, .none⟩

/-- Shows the prompt that a variable holds, so many times, if commands are asked for. -/
def Feed.ask (f : Feed) (name : String) : (times : Nat) → State → List (List Char) × State
  | 0, s => ([], s)
  | times + 1, s =>
    match f.prompt with
    | .none => ([], s)
    | some expand =>
      if !s.has 'i' then ([], s)
      else
        let (shown, s) := expand ((s.value? name).getD "") s
        let (more, s) := f.ask name times s
        (shown.toList :: more, s)

/-- Whether a command is asked for. -/
def Feed.asks (f : Feed) (s : State) : Bool := f.prompt.isSome && s.has 'i'

/-- How many bytes of a script are read at once. -/
def pageSize : Nat := 8192

/-- Reads more of a script, if there is any more. -/
def readPage (f : Feed) (source : Source) (s : State) : Option (Source × State) := do
  let d ← f.descriptor
  let bytes ← (s.unread d).toOption
  let page := bytes.take pageSize
  if page.isEmpty then .none
  else some ({ source with rest := source.rest ++ octetsOf (page.filter (· != 0)) },
    s.advance d page.length)

/-- What comes of reading a line. -/
abbrev Reading := Except Misreading (Option Command × Source)

/-- Whether the end of the text was met in reading. -/
def Reading.metEnd (source : Source) : Reading → Bool
  | .error e => e.left == 0
  | .ok (.none, _) => true
  | .ok (some _, after) =>
    after.cutShort || (after.rest.isEmpty && source.rest.getLast? != some '\n')

/-- Reads a line of commands, and as much text as it takes for that. Gives also the source
from before. -/
def readLineOf (f : Feed) : (fuel : Nat) → Source → State → Reading × Source × State
  | 0, source, s => (Reader.line?.run source, source, s)
  | fuel + 1, source, s =>
    let reading := Reader.line?.run source
    if !Reading.metEnd source reading then (reading, source, s)
    else match readPage f source s with
      | some (source, s) => readLineOf f fuel source s
      | .none => (reading, source, s)

/-- The lines that were looked at in reading. -/
def linesRead (source : Source) (reading : Reading) : List Char :=
  let left := match reading with
    | .error e => e.left
    | .ok (_, after) => after.rest.length
  let taken := source.rest.take (source.rest.length - left)
  if taken.isEmpty || taken.getLast? = some '\n' then taken
  else
    let rest := source.rest.drop taken.length
    let part := rest.takeWhile (· != '\n')
    taken ++ rest.take (part.length + 1)

/-- How many lines were begun in reading after the first one. A newline with which nothing can
be done begins none. -/
def furtherLines (source : Source) : Reading → Nat
  | .error e =>
    let endsLine := source.rest[source.rest.length - e.left - 1]? = some '\n'
    let atEnd := e.left = 0 ∧ e.fault.isEnd
    e.line - source.line - if endsLine ∧ ¬atEnd then 1 else 0
  | .ok (_, after) => after.line - source.line - if after.cutShort then 0 else 1

/-- A text with a prompt after each of its first lines; where there are fewer lines, the other
prompts come at the end. -/
def withPrompts : List (List Char) → List Char → List Char
  | [], text => text
  | prompt :: prompts, [] => prompt ++ withPrompts prompts []
  | prompt :: prompts, c :: cs =>
    if c = '\n' then c :: prompt ++ withPrompts prompts cs
    else c :: withPrompts (prompt :: prompts) cs

/-- Asks for a command. -/
def askForCommand (f : Feed) (s : State) : State :=
  let (prompts, s) := f.ask "PS1" 1 { s with metEnd := false }
  s.tell (String.ofList prompts.flatten)

/-- Shows the lines that were looked at, and asks for all but the first of them. -/
def showReading (f : Feed) (source : Source) (reading : Reading) (s : State) : State :=
  let shown := if f.descriptor.isSome && s.has 'v' then linesRead source reading else []
  let (prompts, s) := f.ask "PS2" (furtherLines source reading) s
  s.tell (String.ofList (withPrompts prompts shown))

/-! ### Running -/

/-- Runs the lines of a script up to one that ends it. A script without any command
succeeds. A shell that asks for its commands goes on after an error, with what comes from
its input then. -/
def runLines (evaluate : Evaluator) (m : Standing) (f : Feed) :
    (fuel : Nat) → (ran : Bool) → Source → State → State
  | 0, _, _, s => s
  | fuel + 1, ran, source, s =>
    let asks := f.asks s
    let s := askForCommand f s
    let text := (f.descriptor.bind fun d => (s.unread d).toOption).getD []
    let (reading, source, s) := readLineOf f (text.length + 1)
      { source with documents := s.documents, aliases := s.aliases, cutShort := false } s
    let s := showReading f source reading s
    let again (s : State) : State :=
      if f.asks s && f.descriptor == some 0 then
        match s.recovered? with
        | some s => runLines evaluate m f fuel true { source with rest := [], held := .none } s
        | .none => s
      else s
    match reading with
    | .error e =>
      let s := { s with line := e.line }.complain ("Syntax error: " ++ e.fault.message)
      again { s with status := 2, flow := .fails }
    | .ok (.none, source) =>
      let s := if asks then s.tell "\n" else s
      { s with documents := source.documents, metEnd := true
               status := if ran then s.status else 0 }
    | .ok (some c, source) =>
      let s := { s with documents := source.documents
                        metEnd := source.held.isSome
                        readers := source.line :: s.readers.drop 1 }
      let s := evaluate m c s
      if s.flow = .next then runLines evaluate m f fuel (ran || !c.isEmpty) source s else again s

/-- Runs a script. -/
def runScript (evaluate : Evaluator) (m : Standing) (f : Feed) (text : List Char) (s : State) :
    State :=
  let t := runLines evaluate m f (text.length + 2 + if f.descriptor.isSome then s.patience else 0)
    false (.ofText text s.documents) { s with readers := 1 :: s.readers }
  { t with readers := s.readers }

/-- Runs a script that is there as a whole. -/
def runText (evaluate : Evaluator) (m : Standing) (text : List Char) (s : State) : State :=
  runScript evaluate m .none text s

/-! ### Signals -/

/-- Does what is to be done at signals that have come, as long as the shell goes on. The
status is not changed by that, unless a function is left with another one. -/
def runPendingFrom (evaluate : Evaluator) (status : Nat) : List Nat → State → State
  | [], s => s
  | signal :: signals, s =>
    if s.flow ≠ .next then { s with pending := s.pending ++ signal :: signals }
    else match s.trap? signal with
      | none => runPendingFrom evaluate status signals s
      | some action =>
        let t := runText evaluate .plain action.toList s
        let t := match t.flow with
          | .next | .returns false | .breaks _ | .continues _ => { t with status := status }
          | _ => t
        runPendingFrom evaluate status signals t

def runPending (evaluate : Evaluator) (s : State) : State :=
  if s.pending.isEmpty || s.flow ≠ .next then s
  else
    let status := s.statusBefore.getD s.status
    let t := runPendingFrom evaluate status (s.pending.mergeSort (· ≤ ·))
      { s with pending := [], statusBefore := some status }
    { t with statusBefore := s.statusBefore }

/-- Runs what is to be run when the shell ends. Its own status does not count, unless it
ends the shell once more. -/
def runAtExit (evaluate : Evaluator) (s : State) : State :=
  if s.isBrokenOff then s
  else match s.trap? 0 with
    | none => s
    | some script =>
      let t := runText evaluate .plain script.toList
        { s with traps := s.traps.filter (·.1 != 0), flow := .next
                 statusBefore := some s.status }
      match t.flow with
      | .exits | .fails | .killed _ | .interrupted => t
      | _ => { t with status := s.status }

/-- Runs a command in a process of its own. Where nothing else is to come, that is the
process at hand. -/
def inSubshell (evaluate : Evaluator) (m : Standing) (c : Command) (s : State) : State :=
  s.isolate m.last fun t => runAtExit evaluate (evaluate ⟨m.tested, true⟩ c t.begun)

end NotebookTidy.Shell
