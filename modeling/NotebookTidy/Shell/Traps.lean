import NotebookTidy.Shell.Lookup
import NotebookTidy.Shell.Process

/-! What is to be done at signals and at the end, and ending. -/
namespace NotebookTidy.Shell

/-- What is to be done at signals, as commands. -/
def State.trapReport (s : State) : String :=
  String.join (s.traps.map fun (n, action) =>
    "trap -- " ++ shellQuoted action ++ " " ++ signalName n ++ "\n")

def State.setTrap (s : State) (signal : Nat) (action : Option String) : State :=
  let others := s.traps.filter (·.1 != signal)
  { s with traps := match action with
      | none => others
      | some a =>
        others.filter (·.1 < signal) ++ (signal, a) :: others.filter (signal < ·.1) }

def setTraps (action : Option String) : List String → Act Nat
  | [] => return 0
  | name :: names => do
    match signal? 0 name with
    | none =>
      Act.tell ("trap: " ++ name ++ ": bad trap\n")
      return 1
    | some n =>
      modify (State.setTrap · n action)
      setTraps action names

def trap (args : List String) : Act Nat := do
  let (_, args) ← Act.options [] args
  match args with
  | [] => Act.printText "trap" (← get).trapReport
  | [name] => setTraps none [name]
  | action :: names =>
    if (signalNumber? action).isSome then setTraps none (action :: names)
    else setTraps (if action = "-" then none else some action) names

/-- Ends the shell. Without a status, that from before what is done at the end counts. -/
def leaveShell (args : List String) : Act Nat := do
  let s ← get
  let status ← match args with
    | [] => pure (s.statusBefore.getD s.status)
    | n :: _ => Act.number n
  modify fun s => { s with flow := .exits }
  return status

/-- Ends a function, or a script. -/
def leaveFunction (args : List String) : Act Nat := do
  let status ← match args with
    | [] => pure (← get).status
    | n :: _ => Act.number n
  modify fun s => { s with flow := .returns !args.isEmpty }
  return status

/-- Ends loops, or begins them anew. -/
def leaveLoops (flow : Nat → Flow) (args : List String) : Act Nat := do
  let n ← match args with
    | [] => pure 1
    | n :: _ => Act.number n
  if n = 0 then Act.fail ("Illegal number: " ++ args.head?.getD "")
  let s ← get
  let n := min n s.loops
  if 0 < n then set { s with flow := flow n }
  return 0

end NotebookTidy.Shell
