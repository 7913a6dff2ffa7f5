import NotebookTidy.Shell.Simple

/-! Running commands.

A step runs a command, given how the commands inside of it are run; taking so many steps one
within the other bounds how deep commands, functions and shells may be nested. The commands
of a pipeline run one after the other, each on all that the one before it wrote. -/
namespace NotebookTidy.Shell
open Files

section Step
variable (evaluate : Evaluator) (fuel : Nat)

/-! ### Pipelines -/

/-- Looks up the program that a command of a pipeline begins with. -/
def State.lookUpFirst (s : State) : Command → State
  | .simple _ _ (w :: _) _ =>
    match w.plain? with
    | some name =>
      if !isName name || s.isCommandOfShell name then s else s.lookUp name
    | none => s
  | _ => s

/-- How often a loop may go round to whose end nobody may be looking forward. -/
def shortPatience : Nat := 100000

/-- Runs the commands of a pipeline by a way of running one of them, each on what the one
before it wrote. -/
def runPiped (run : Command → State → State) : (input : Option Nat) → List Command → State → State
  | _, [], s => s
  | input, c :: cs, s =>
    let s := s.lookUpFirst c
    let t := match input with
      | some i => s.connect 0 i
      | none => s
    match cs with
    | [] => { run c t with descriptors := s.descriptors }
    | _ =>
      let (i, t) := t.addChannel (.sink [])
      let t := run c { t.connect 1 i with patience := min t.patience shortPatience }
      let t := t.setChannel i (.source (t.written i))
      runPiped run (some i) cs
        { t with descriptors := s.descriptors, patience := s.patience, status := s.status }

/-! ### The background -/

/-- Runs a command in the background. It takes no notice of what a user may break off by. -/
def runUnwatched (m : Standing) (c : Command) (s : State) : State :=
  let child := { s.spawned.begun with
    deaf := signalInterrupt :: signalQuit :: s.deaf, patience := min s.patience shortPatience }
  let t := runAtExit evaluate (evaluate ⟨m.tested, true⟩ c child)
  let job := match s.jobs with
    | job :: _ => job
    | [] => ⟨0, [], 0, none, false, true, false⟩
  let job := { job with
    processes := job.processes ++ [child.process], status := t.lastStatus
    signal := t.endSignal?, endless := t.flow = .endless }
  { s.inherit t with jobs := job :: s.jobs.drop 1, lastJob := some child.process }

/-- Runs the commands of a pipeline in the background, where there is nothing to be read. -/
def runBackground (m : Standing) (cs : List Command) (s : State) : State :=
  let (place, t) := s.takePlace
  let (i, t) := t.addChannel (.device .null .read)
  let t := { t with jobs := ⟨place, [], 0, none, false, true, false⟩ :: t.jobs }
  let t := runPiped (runUnwatched evaluate m) (some i) cs t
  { t with descriptors := s.descriptors, status := 0 }

/-! ### Compound commands -/

def runSequence (m : Standing) : List Command → State → State
  | [], s => s
  | [c], s => evaluate m c s
  | c :: cs, s =>
    let s := evaluate m.notLast c s
    if s.flow = .next then runSequence m cs s else s

/-- What is left of breaking out of a loop or beginning it anew: whether the loop goes on. -/
def leaveLoop (s : State) : Bool × State :=
  match s.flow with
  | .next => (true, s)
  | .continues n => if n ≤ 1 then (true, { s with flow := .next })
    else (false, { s with flow := .continues (n - 1) })
  | .breaks n => if n ≤ 1 then (false, { s with flow := .next })
    else (false, { s with flow := .breaks (n - 1) })
  | _ => (false, s)

/-- Repeats commands. The status is that of the body, or zero if that never runs. -/
def runLoop (m : Standing) (wanted : Bool) (test body : Command) :
    (rounds : Nat) → (status : Nat) → State → State
  | 0, status, s => { s with status := status, flow := .endless }
  | rounds + 1, status, s =>
    let s := evaluate .test test s
    let left := s.flow
    let (goesOn, s) := leaveLoop s
    if !goesOn then
      match left with
      | .breaks _ | .continues _ => { s with status := status }
      | _ => s
    else if left ≠ .next then runLoop m wanted test body rounds status s
    else if (s.status == 0) != wanted then { s with status := status }
    else
      let s := evaluate m.notLast body s
      let status := s.status
      let (goesOn, s) := leaveLoop s
      if goesOn then runLoop m wanted test body rounds status s else s

/-- Runs commands for each of some values of a variable. -/
def runEach (m : Standing) (name : String) (body : Command) :
    (values : List String) → State → State
  | [], s => s
  | value :: values, s =>
    match (Act.assign name value).run s with
    | (none, t) => t.failed
    | (some (), t) =>
      let (goesOn, t) := leaveLoop (evaluate m.notLast body t)
      if goesOn then runEach m name body values t else t

/-- The body of the first clause with a pattern that accepts a text. -/
def chooseClause (text : String) : List Clause → Act (Option Command)
  | [] => return none
  | .mk patterns body :: clauses => do
    let rec accepted : List Word → Act Bool
      | [] => return false
      | w :: ws => do
        let p ← expandPattern evaluate fuel w
        if p.accepts text.toList then return true else accepted ws
    if ← accepted patterns then return some body else chooseClause text clauses

/-! ### All commands -/

/-- Comes to the end of a command: what is to be done at signals is done, and the shell ends if
the command has failed and was not to. -/
def settle (m : Standing) (s : State) : State :=
  let t := runPending evaluate s
  if !m.tested && t.has 'e' && s.status != 0 && !t.isLeaving then { t with flow := .exits } else t

/-- Runs a command, given how those inside of it are run. -/
def runCommand (m : Standing) (c : Command) (s : State) : State :=
  match c with
  | .simple line as ws rs => settle evaluate m (runSimple evaluate fuel m line as ws rs s)
  | .pipeline cs =>
    settle evaluate m (runPiped (inSubshell evaluate m.notLast) none cs s)
  | .negation c =>
    let s := evaluate .test c s
    if s.flow = .next then { s with status := if s.status = 0 then 1 else 0 } else s
  | .both a b =>
    let s := evaluate .test a s
    if s.flow = .next ∧ s.status = 0 then evaluate m b s else s
  | .either a b =>
    let s := evaluate .test a s
    if s.flow = .next ∧ s.status ≠ 0 then evaluate m b s else s
  | .sequence cs => runSequence evaluate m cs s
  | .subshell line body rs =>
    match (connections evaluate fuel rs).run { s with line := line } with
    | (none, t) => t.failed
    | (some cs, t) =>
      settle evaluate m (t.isolate m.last fun t =>
        let (connected, t) := connectAll evaluate fuel false cs t.begun
        if connected then runAtExit evaluate (evaluate ⟨m.tested, true⟩ body t) else t)
  | .background (.pipeline cs) => runBackground evaluate m cs s
  | .background body => runBackground evaluate .plain [body] s
  | .redirected line body rs =>
    match (connections evaluate fuel rs).run { s with line := line } with
    | (none, t) => t.failed
    | (some cs, before) =>
      let (connected, t) := connectAll evaluate fuel true cs before
      if connected then
        runPending evaluate ((evaluate m.notLast body t).reconnect before cs)
      else settle evaluate m (t.reconnect before cs)
  | .choice test a b =>
    let s := evaluate .test test s
    if s.flow ≠ .next then s
    else if s.status = 0 then evaluate m a s
    else if b.isEmpty then { s with status := 0 }
    else evaluate m b s
  | .loop wanted test body =>
    let t := runLoop evaluate m wanted test body s.patience 0 { s with loops := s.loops + 1 }
    { t with loops := s.loops }
  | .each line name ws body =>
    match ((ws.mapM (expandArguments evaluate fuel)).run { s with line := line }) with
    | (none, t) => t.failed
    | (some values, t) =>
      let t := runEach evaluate m name body values.flatten
        { t with loops := s.loops + 1, status := if values.flatten.isEmpty then 0 else t.status }
      { t with loops := s.loops }
  | .select line subject clauses =>
    let chosen : Act (Option Command) := do
      chooseClause evaluate fuel (← expandText evaluate fuel subject) clauses
    match chosen.run { s with line := line } with
    | (none, t) => t.failed
    | (some none, t) => { t with status := 0 }
    | (some (some body), t) =>
      if body.isEmpty then { t with status := 0 } else evaluate m body t
  | .define name body =>
    { s with functions := (name, body) :: s.functions.filter (·.1 != name), status := 0 }

/-- Runs a command after what is to be done at signals, unless commands are only to be
read. -/
def step : Evaluator := fun m c s =>
  let s := runPending evaluate s
  if s.flow = .next && !s.has 'n' then runCommand evaluate fuel m c s else s

end Step

/-- Runs commands, so many of them one within the other. -/
def evaluator : (fuel : Nat) → Evaluator
  | 0 => fun _ _ s => { s with flow := .endless }
  | fuel + 1 => step (evaluator fuel) fuel

end NotebookTidy.Shell
