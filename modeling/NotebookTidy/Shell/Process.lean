import NotebookTidy.Shell.Action

/-! Processes.

A shell gives work to other processes, which begin with a copy of all that it has, and goes
on when they have ended; of what they did, only the files and the channels are left. A
signal that is sent to a process that waits comes to it when it goes on. -/
namespace NotebookTidy.Shell

namespace State

/-- The end of a command: by an error, unless something else has ended it. -/
def failed (s : State) : State := if s.flow = .next then { s with flow := .fails } else s

/-- A signal has broken off what the shell does. -/
def isBrokenOff (s : State) : Bool :=
  match s.flow with
  | .killed _ | .interrupted => true
  | _ => false

/-! ### Putting back -/

/-- Puts a variable or the options back. -/
def restore (s : State) : Hidden → State
  | .options old => { s with options := old }
  | .variable name (some v) => (s.noteValue name (v.value.getD "")).putVariable name v
  | .variable name none =>
    if isName name then s.dropVariable name
    else { s.complain (name ++ ": bad variable name") with status := 2, flow := .fails }

/-- Puts back what was hidden by all commands but so many of the outer ones. -/
def unwind (s : State) (depth : Nat) : State :=
  let inner := s.hidden.length - depth
  (s.hidden.take inner).flatten.foldl restore { s with hidden := s.hidden.drop inner }

/-- The state in which a shell that asks for its commands goes on after one that went
wrong. -/
def recovered? (s : State) : Option State :=
  let again (s : State) : State := { s.unwind 0 with flow := .next, loops := 0 }
  match s.flow with
  | .fails => some (again s)
  | .interrupted => some (again (s.tell "\n"))
  | _ => none

/-! ### Signals -/

/-- What is to be done at a signal; nothing at all if that is an empty text. -/
def trap? (s : State) (signal : Nat) : Option String :=
  (s.traps.find? (·.1 == signal)).map Prod.snd

/-- Whether something is to be done at any signal, or at the end. -/
def hasTraps (s : State) : Bool := s.traps.any (·.2 != "")

def expect (s : State) (signal : Nat) : State :=
  if s.pending.contains signal then s else { s with pending := s.pending ++ [signal] }

/-- Whether the process is a shell that asks for its commands, and not a part of one. -/
def isAsking (s : State) : Bool := s.has 'i' && s.process == s.shellProcess

/-- Whether a signal ends a process that has not asked for anything else. -/
def endsBy (s : State) (signal : Nat) : Bool :=
  signal == signalKill || !(isHarmless signal || isStopping signal
    || s.deaf.contains signal
    || (s.isAsking && (signal == signalQuit || signal == signalTerminate)))

/-- Ends by a signal, or breaks off what the shell does. -/
def breakOff (s : State) (signal : Nat) : State :=
  if s.isBrokenOff then s
  else if signal = signalInterrupt ∧ s.isAsking then
    { s with status := signalStatus signal, flow := .interrupted }
  else { s with flow := .killed signal }

/-- Takes a signal. The number zero only asks whether the process is there. -/
def receive (s : State) (signal : Nat) : State :=
  if signal = 0 then s
  else match (if isUnstoppable signal || s.deaf.contains signal then none else s.trap? signal) with
  | some "" => s
  | some _ => s.expect signal
  | none => if s.endsBy signal then s.breakOff signal else s

/-- Takes the signals that were sent to this process. -/
def receiveSent (s : State) : State :=
  let (mine, others) := s.sent.partition (·.1 == s.process)
  mine.foldl (fun s m => s.receive m.2) { s with sent := others }

/-! ### The commands in the background -/

/-- A place in the table of commands: the first one that is free, or that holds a command
whose status has been asked for. -/
def freePlace (s : State) : (fuel : Nat) → (place : Nat) → Nat × State
  | 0, place => (place, s)
  | fuel + 1, place =>
    match s.jobs.find? (·.place == place) with
    | none => (place, s)
    | some job =>
      if job.waited then (place, { s with jobs := s.jobs.filter (·.place != place) })
      else s.freePlace fuel (place + 1)

def takePlace (s : State) : Nat × State := s.freePlace (s.jobs.length + 1) 0

/-! ### Forking -/

/-- A process of its own, for which this one waits. -/
def spawned (s : State) : State :=
  { s with
    process := s.processes + 1
    processes := s.processes + 1
    parents := s.process :: s.parents }

/-- Begins some work of a shell to which nothing else is added. What was to be done at
signals counts no longer, but signals of which no notice is taken stay so. -/
def begun (s : State) : State :=
  { s with
    flow := .next
    loops := 0
    traps := s.traps.filter (·.2 == "")
    pending := []
    jobs := []
    readers := s.readers.drop (s.readers.length - 1) }

/-- What a process leaves behind for one that goes on. -/
def inherit (s t : State) : State :=
  { s with
    tree := { t.tree with workDir := s.tree.workDir }
    channels := t.channels
    documents := t.documents
    processes := t.processes
    sent := t.sent }

/-- The signal that has ended a process, by its last state. -/
def endSignal? (t : State) : Option Nat :=
  match t.flow with
  | .killed signal => some signal
  | _ => none

/-- The status of a process, by its last state. -/
def lastStatus (t : State) : Nat :=
  match t.endSignal? with
  | some signal => signalStatus signal
  | none => t.status % 256

/-- Says that a signal has ended a process, if that is worth a word. -/
def tellSignal (s : State) (signal : Nat) : State :=
  if signal = signalInterrupt ∨ signal = signalPipe then s
  else s.tell (signalDescription signal ++ "\n")

/-- Goes on after a process has ended, given its last state. Of the commands in the
background that have ended as well, nothing more is said. -/
def rejoin (s t : State) : State :=
  let r := s.takePlace.2.inherit t
  let r := { r with status := t.lastStatus, jobs := r.jobs.map Job.settled }
  let r := match t.endSignal? with
    | some signal => r.tellSignal signal
    | none => r
  (r.receive signalChild).receiveSent

/-- Ends as a process did that has taken the place of this one. -/
def replaced (s t : State) : State :=
  { s.inherit t with
    status := t.lastStatus
    traps := []
    flow := if t.isBrokenOff then t.flow else .exits }

/-- Does some work in a process of its own, or in this one if nothing else comes after it
here. -/
def isolate (s : State) (last : Bool) (work : State → State) : State :=
  if last && !s.hasTraps then s.replaced (work s) else s.rejoin (work s.spawned)

end State
end NotebookTidy.Shell
