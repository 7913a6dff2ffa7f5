import NotebookTidy.Shell.Builtin
import NotebookTidy.Shell.Invocation

/-! Simple commands.

The words of a command are expanded first, then its redirections are made, then its variables
are set, and then what it calls is run: a command of the shell, a function or a program. What
the command has hidden or connected is put back after it, unless the shell ends. -/
namespace NotebookTidy.Shell
open Files

/-! ### What is called -/

/-- What a name at the start of a command stands for. -/
inductive Callee where
  | builtin (special : Bool) (run : List String → Act Nat)
  /-- The command that takes the place of the shell. -/
  | replace
  | function (body : Command)
  | program

/-- What the command that runs others is to run: whether it is looked up in the usual
directories, and the command with its arguments; none if nothing is to be run. -/
def plainCall? : (args : List String) → Option (Bool × List String)
  | [] => some (false, [])
  | arg :: args =>
    match arg.toList with
    | ['-', '-'] => some (false, args)
    | '-' :: c :: cs =>
      if (c :: cs).all (· == 'p') then (plainCall? args).map fun r => (true, r.2) else none
    | _ => some (false, arg :: args)

/-- The command that is called by arguments, behind the command that runs others; none if it
is a function. -/
def calledBuiltin? (functions : List String) : (fuel : Nat) → List String → Option String
  | fuel + 1, name :: args =>
    if functions.contains name then none
    else if name = "command" then
      match plainCall? args with
      | some (_, args) => calledBuiltin? [] fuel args
      | none => none
    else some name
  | _, _ => none

def State.calledBuiltin? (s : State) (args : List String) : Option String :=
  Shell.calledBuiltin? (s.functions.map Prod.fst) (args.length + 1) args

/-- The commands whose arguments may be in the form of assignments. -/
def declarations : List String := ["alias", "export", "local", "readonly"]

/-- Whether a name stands for a special command of the shell. -/
def isSpecial : List String → Bool
  | [] => false
  | name :: _ => specialBuiltins.contains name

namespace State

/-- Whether nothing more is run but what belongs to the end of the process. -/
def isLeaving (s : State) : Bool :=
  match s.flow with
  | .exits | .fails | .killed _ | .interrupted | .endless => true
  | _ => false

end State

section Simple
variable (evaluate : Evaluator) (fuel : Nat)

/-! ### Scripts within the shell -/

/-- Runs the arguments as a script. -/
def evalArguments (m : Standing) (args : List String) : Act Nat := do
  modify (runText evaluate m.notLast (" ".intercalate args).toList)
  return (← get).status

/-- The path of a script that is to be run in this shell. -/
def scriptPath (name : String) : Act String := do
  if name.contains '/' then return name
  let s ← get
  let paths := s.searchPath.map (State.inDirectory · name)
  match paths.find? fun path => match s.kind? path with
      | some (.regular _ _) => true
      | _ => false with
  | some path => return path
  | none => Act.fail (name ++ ": not found")

/-- Runs a script in this shell. -/
def sourceFile (args : List String) : Act Nat := do
  match args with
  | [] => return 0
  | name :: _ =>
    let path ← scriptPath name
    let d ← Act.openScript path
    modify fun s => runScript evaluate .plain ⟨some d, none⟩ [] { s with builtin := some path }
    modify fun s => match s.flow with
      | .returns _ => { s.disconnect d with flow := .next }
      | _ => s.disconnect d
    return (← get).status

/-! ### Calling -/

/-- What a name stands for. -/
def callee (s : State) (m : Standing) (functions : Bool) (name : String) : Callee :=
  if name = "eval" then .builtin true (evalArguments evaluate m)
  else if name = "." then .builtin true (sourceFile evaluate)
  else if name = "exec" then .replace
  else if specialBuiltins.contains name then
    match plainBuiltin? name with
    | some run => .builtin true run
    | none => .program
  else match if functions then s.functions.find? (·.1 == name) else none with
    | some (_, body) => .function body
    | none =>
      match plainBuiltin? name with
      | some run => .builtin false run
      | none => .program

/-- Runs a command of the shell, by its name; whether it went wrong. -/
def runBuiltin (name : String) (run : List String → Act Nat) (args : List String) (s : State) :
    Bool × State :=
  let (status, t) := (run args).run { s with builtin := some name }
  match status with
  | some n => (false, { t with status := n, builtin := s.builtin })
  | none => (true, { t with builtin := s.builtin })

/-- Looks a program up and runs it. -/
def runNamed (m : Standing) (directories : List String) (name : String) (args : List String)
    (s : State) : State :=
  match s.findProgram directories name with
  | .ok (_, p) =>
    let s := if directories = s.searchPath then s.remember name else s
    s.isolate m.last (runProgram evaluate p name args)
  | .error f => { s.complain (name ++ ": " ++ f.reason) with status := f.status }

/-- Lets a program take the place of the shell. -/
def runInstead (name : String) (args : List String) (s : State) : State :=
  match s.findProgram s.searchPath name with
  | .ok (_, p) => s.replaced (runProgram evaluate p name args s)
  | .error f =>
    let t := { s with builtin := some "exec" }.complain (name ++ ": " ++ f.reason)
    { t with builtin := s.builtin, flow := .exits
             status := if f.reason = "Permission denied" then 126 else f.status }

/-- How many functions may be called within each other. -/
def callLimit : Nat := 1000

/-- Calls a function. -/
def callFunction (m : Standing) (body : Command) (args : List String) (s : State) : State :=
  if s.calls = callLimit then
    { s.complain ("Maximum function recursion depth (" ++ toString callLimit ++ ") reached") with
      status := 2, flow := .fails }
  else
    let t := evaluate m.notLast body
      { s with arguments := args, loops := 0, calls := s.calls + 1, optionIndex := 1
               optionPlace := 0 }
    { t with arguments := s.arguments, loops := s.loops, calls := s.calls
             optionIndex := s.optionIndex, optionPlace := s.optionPlace
             flow := match t.flow with
               | .returns _ => .next
               | flow => flow }

/-- Runs a command whose variables are set and whose descriptors are connected. Functions
may be left out of account. Whether what went wrong ends the shell is for the special
commands only. -/
def call (m : Standing) : (depth : Nat) → (usual functions forgiving : Bool) → String →
    List String → State → State
  | 0, _, _, _, _, _, s => s
  | depth + 1, usual, functions, forgiving, name, args, s =>
    if name = "command" ∧ !(functions && s.functions.any (·.1 == name)) then
      match plainCall? args with
      | some (_, []) => { s with status := 0 }
      | some (usual', name :: args) => call m depth (usual || usual') false true name args s
      | none => (runBuiltin name describeCommand args s).2
    else match callee evaluate s m functions name with
      | .builtin special run =>
        let (failed, t) := runBuiltin name run args s
        if failed && special && !forgiving then t.failed
        else if t.flow = .fails && (forgiving || !special) then
          { t with flow := .next, status := 2 }
        else t
      | .replace =>
        match args with
        | [] => { s with status := 0 }
        | name :: args => runInstead evaluate name args s
      | .function body => callFunction evaluate m body args s
      | .program =>
        runNamed evaluate m (if usual then State.usualPath else s.searchPath) name args s

/-! ### Variables and arguments -/

/-- Gives variables values for one command only, and exports them to it. -/
def assignBefore (as : List Assignment) : Act Unit :=
  as.forM fun
    | .mk name word => do
      let value ← expandValue evaluate fuel word
      let s ← get
      if (s.binding? name).any Variable.readOnly then Act.fail (name ++ ": is read only")
      match s.hidden with
      | frame :: frames =>
        set { s with hidden := (.variable name (s.binding? name) :: frame) :: frames }
      | [] => pure ()
      Act.assign name value
      modify (State.exportVariable · name)

/-- Gives variables values for good. -/
def assignForGood (exported : Bool) (as : List Assignment) : Act Unit :=
  as.forM fun
    | .mk name word => do
      Act.assign name (← expandValue evaluate fuel word)
      if exported then modify (State.exportVariable · name)

/-- Arguments, where words in the form of assignments stay whole. -/
def declarationArguments (ws : List Word) : Act (List String) := do
  let parts ← ws.mapM fun w => do
    match w.assignment? with
    | some (.mk name value) =>
      return [name ++ "=" ++ (← expandValue evaluate fuel value)]
    | none => expandArguments evaluate fuel w
  return parts.flatten

/-- The arguments of a command, after those that there are already. -/
def commandArguments (before : List String) : List Word → Act (List String)
  | [] => return before
  | w :: ws => do
    if ((← get).calledBuiltin? before).any declarations.contains then
      return before ++ (← declarationArguments evaluate fuel (w :: ws))
    else commandArguments (before ++ (← expandArguments evaluate fuel w)) ws

/-! ### The whole command -/

/-- Shows a command before it is run, where messages went before it was connected. -/
def trace (before : State) (as : List Assignment) (args : List String) (s : State) : State :=
  if !s.has 'x' || s.tracing then s
  else
    let shown := as.map fun
      | .mk name _ => name ++ "=" ++ (s.value? name).getD ""
    let (lead, t) := expandPrompt evaluate ((s.value? "PS4").getD "")
      { s with descriptors := before.descriptors, tracing := true }
    let t := t.tell (lead ++ " ".intercalate (shown ++ args) ++ "\n")
    { t with descriptors := s.descriptors, tracing := false }

/-- Sets the variables of a command and calls it. -/
def callWith (m : Standing) (before : State) (as : List Assignment) (args : List String)
    (s : State) : State :=
  let forGood := isSpecial args || args.isEmpty
  let replaces := s.calledBuiltin? args = some "exec" && 1 < args.length
  let s := if forGood then s else { s with hidden := [] :: s.hidden }
  let assigning :=
    if forGood then assignForGood evaluate fuel replaces as
    else assignBefore evaluate fuel as
  match assigning.run s with
  | (none, t) => t.failed
  | (some (), t) =>
    let t := trace evaluate before as args t
    match args with
    | [] => { t with status := t.outputStatus }
    | name :: args => call evaluate m 100 false true false name args t

/-- Runs a simple command. -/
def runSimple (m : Standing) (line : Nat) (as : List Assignment) (ws : List Word)
    (rs : List Redirection) (s : State) : State :=
  let expanding : Act (List String × List Connection) := do
    let args ← commandArguments evaluate fuel [] ws
    return (args, ← connections evaluate fuel rs)
  match expanding.run { s with line := line, outputStatus := 0 } with
  | (none, t) => t.failed
  | (some (args, cs), before) =>
    let (connected, t) := connectAll evaluate fuel true cs before
    let t :=
      if connected then callWith evaluate fuel m before as args t
      else if isSpecial args then t.failed
      else t
    let t := if t.isLeaving then t else t.unwind before.hidden.length
    let stays := connected && t.flow = .next && before.calledBuiltin? args = some "exec"
    if stays then t else t.reconnect before cs

end Simple
end NotebookTidy.Shell
