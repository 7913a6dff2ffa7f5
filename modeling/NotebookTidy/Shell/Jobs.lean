import NotebookTidy.Shell.Lookup
import NotebookTidy.Shell.Process

/-! Commands in the background, and signals to processes. -/
namespace NotebookTidy.Shell

/-! ### Which command is meant -/

/-- The command in the background that an argument stands for, which begins with a per cent
sign if there is one. -/
def findJob (s : State) (arg : Option String) : Except String Job :=
  let current := match s.jobs with
    | job :: _ => .ok job
    | [] => .error "No current job"
  let unknown (arg : String) : Except String Job := .error ("No such job: " ++ arg)
  match arg with
  | none => current
  | some arg =>
    match arg.toList with
    | ['%'] | ['%', '%'] | ['%', '+'] => current
    | ['%', '-'] =>
      match s.jobs with
      | _ :: job :: _ => .ok job
      | _ => .error "No previous job"
    | '%' :: cs =>
      let text := String.ofList cs
      let numbered := if cs.all Char.isDigit then
          s.jobs.find? (·.place + 1 == (digitsFrom 10 0 cs).1)
        else none
      match numbered, s.jobs with
      | some job, _ => .ok job
      | none, [job] => if text = "?" then .ok job else unknown arg
      | none, _ :: _ :: _ => if text = "?" then .error (arg ++ ": ambiguous") else unknown arg
      | none, [] => unknown arg
    | _ => unknown arg

/-- The same, for an action of the shell. -/
def Act.job (arg : Option String) : Act Job := do
  match findJob (← get) arg with
  | .ok job => return job
  | .error what => Act.fail what

/-! ### Waiting -/

/-- Waits for a command. If that is how its end becomes known, the signal is told that has
ended it. -/
def State.waitFor (s : State) (job : Job) : State :=
  let s := if job.running then
      let s := match job.signal with
        | some signal => s.tellSignal signal
        | none => s
      s.receive signalChild
    else s
  { s with jobs := s.jobs.map fun j =>
      if j.place = job.place then { j.settled with waited := true } else j }

/-- Waits for all commands in the background. -/
def State.waitForAll (s : State) : State :=
  let s := if s.jobs.any Job.running then s.receive signalChild else s
  { s with jobs := s.jobs.map fun j => { j.settled with waited := true } }

/-- Takes the signals that commands in the background have sent. One for which something is
to be done ends the waiting for them. -/
def Act.interruption? : Act (Option Nat) := do
  let s ← get
  if !s.jobs.any Job.running then return none
  set s.receiveSent
  let t ← get
  if t.isBrokenOff then failure
  return (t.pending.filter fun n => !s.pending.contains n).getLast?

/-- Waits for commands in the background, which is to ask how they ended. -/
def waitForJobs (args : List String) : Act Nat := do
  let (_, args) ← Act.options [] args
  match ← Act.interruption? with
  | some signal => return signalStatus signal
  | none => pure ()
  if args.isEmpty then
    modify State.waitForAll
    return 0
  let mut status := 127
  for arg in args do
    let found ← if arg.startsWith "%" then some <$> Act.job arg
      else do
        let process ← Act.number arg
        pure ((← get).jobs.find? (·.lastProcess == process))
    match found with
    | some job =>
      modify (State.waitFor · job)
      status := job.status
    | none => pure ()
  return status

/-! ### Showing -/

/-- How a command ended, if it did. -/
def Job.ending (job : Job) : String :=
  if job.running then "Running"
  else match job.signal with
    | some signal => signalDescription signal
    | none => if job.status = 0 then "Done" else "Done(" ++ toString job.status ++ ")"

/-- A command in a list: its place, and whether it is the last one or the one before. -/
def jobLine (s : State) (withProcess : Bool) (job : Job) : String :=
  let sign := match s.jobs with
    | a :: rest =>
      if a.place = job.place then "+"
      else if (rest.head?.map Job.place) = some job.place then "-" else " "
    | [] => " "
  let process (n : Nat) := if withProcess then toString n ++ " " else ""
  let lead := "[" ++ toString (job.place + 1) ++ "] " ++ sign ++ " "
  let text := lead ++ process (job.processes.head?.getD 0) ++ job.ending
  let blanks (n : Nat) := String.ofList (List.replicate n ' ')
  let first := text ++ blanks (max 1 (33 - text.length))
  let others := job.processes.tail
  if withProcess then
    first ++ "\n" ++ String.join (others.map fun n =>
      " |\n" ++ blanks lead.length ++ toString n ++ "\n")
  else first ++ String.join (others.map fun _ => " | ") ++ "\n"

def showJobs (args : List String) : Act Nat := do
  let (given, args) ← Act.options ['l', 'p'] args
  let showJob (job : Job) : Act Unit := do
    let s ← get
    match given.getLast? with
    | some 'p' =>
      let _ ← Act.printText "jobs" (toString (job.processes.head?.getD 0) ++ "\n")
    | mode =>
      let _ ← Act.printText "jobs" (jobLine s (mode = some 'l') job)
      if !job.running then
        modify fun s => { s with jobs := s.jobs.filter (·.place != job.place) }
  if args.isEmpty then
    for job in (← get).jobs do
      showJob job
  else
    for arg in args do
      showJob (← Act.job arg)
  return 0

/-- Fetches a command from the background, which takes a terminal. -/
def fetchJob (args : List String) : Act Nat := do
  let (_, args) ← Act.options [] args
  let arg := args.head?
  let _ ← Act.job arg
  Act.fail ("job " ++ arg.getD "(null)" ++ " not created under job control")

/-! ### Sending signals -/

def signalUsage : String :=
  "Usage: kill [-s sigspec | -signum | -sigspec] [pid | job]... or\nkill -l [exitstatus]"

/-- The options of sending signals: the signal, and whether signals are to be listed. -/
def signalOptions : (fuel : Nat) → List String → Act ((Option Nat × Bool) × List String)
  | 0, args => return ((none, false), args)
  | fuel + 1, args => do
    match args with
    | [] => return ((none, false), [])
    | arg :: rest =>
      match arg.toList with
      | ['-', '-'] => return ((none, false), rest)
      | '-' :: c :: cs =>
        let again := if cs.isEmpty then rest else String.ofList ('-' :: cs) :: rest
        if c = 'l' then
          let ((signal, _), args) ← signalOptions fuel again
          return ((signal, true), args)
        else if c = 's' then
          let (name, rest) ← match cs, rest with
            | [], [] => Act.fail "No arg for -s option"
            | [], name :: rest => pure (name, rest)
            | cs, rest => pure (String.ofList cs, rest)
          match signal? 1 name with
          | none => Act.fail ("invalid signal number or name: " ++ name)
          | some n =>
            let ((signal, lists), args) ← signalOptions fuel rest
            return ((signal <|> some n, lists), args)
        else Act.fail ("Illegal option -" ++ String.ofList [c])
      | _ => return ((none, false), args)

/-- Takes note of a signal that is sent to a process in the background. -/
def State.signalJob (s : State) (signal process : Nat) (job : Job) : Job :=
  let child := { s with deaf := signalInterrupt :: signalQuit :: s.deaf }
  if job.lastProcess = process && job.signal.isNone && signal != 0 && child.endsBy signal
      && child.trap? signal != some "" then
    { job with status := signalStatus signal, signal := some signal, endless := false }
  else job

/-- Sends a signal to a process; whether there is such a process. Nothing is sent by the
signal zero, for which the first process of all and those of one's own group can be named. -/
def State.signalProcess (s : State) (signal process : Nat) : Bool × State :=
  if signal = 0 ∧ process ≤ 1 then (true, s)
  else if process = s.process then (true, s.receive signal)
  else if s.parents.contains process then
    (true, { s with sent := s.sent ++ [(process, signal)] })
  else
    let isMeant (j : Job) := j.running && j.processes.contains process
    (s.jobs.any isMeant,
      { s with jobs := s.jobs.map fun j => if isMeant j then s.signalJob signal process j else j })

/-- Sends a signal to what an argument stands for. -/
def sendSignal (signal : Nat) (arg : String) : Act Nat := do
  let found ←
    if arg.startsWith "%" then
      let _ ← Act.job arg
      pure false
    else if arg.startsWith "-" then
      let group ← Act.number (String.ofList (arg.toList.drop 1))
      pure (signal = 0 && group ≤ 1)
    else
      let process ← Act.number arg
      let (found, s) := (← get).signalProcess signal process
      set s
      if s.isBrokenOff then failure
      pure found
  if found then return 0
  modify fun s => s.complain "No such process\n"
  return 1

def sendSignals (signal : Nat) : List String → Act Nat
  | [] => return 0
  | arg :: args => do
    let status ← sendSignal signal arg
    let rest ← sendSignals signal args
    return status ||| rest

/-- Lists the signals, or names the one that a number or a status stands for. -/
def listSignals (args : List String) : Act Nat := do
  match args with
  | [] => Act.printText "kill" (String.join (("0" :: signalNames.drop 1).map (· ++ "\n")))
  | arg :: _ =>
    let n ← Act.number arg
    let n := if 128 < n then n - 128 else n
    if 0 < n && n < signalCount then Act.printText "kill" (signalName n ++ "\n")
    else Act.fail ("invalid signal number or exit status: " ++ arg)

def kill (args : List String) : Act Nat := do
  match args with
  | [] => Act.fail signalUsage
  | first :: rest =>
    let direct := if first.startsWith "-" then
        signal? 1 (String.ofList (first.toList.drop 1))
      else none
    let ((signal, lists), args) ← match direct with
      | some n => pure ((some n, false), rest)
      | none => signalOptions ((String.join args).length + args.length + 1) args
    if lists then
      if signal.isSome then Act.fail signalUsage else listSignals args
    else if args.isEmpty then Act.fail signalUsage
    else sendSignals (signal.getD signalTerminate) args

end NotebookTidy.Shell
