import NotebookTidy.Shell.Connection
import NotebookTidy.Shell.Directory
import NotebookTidy.Shell.Settings

/-! Starting programs and shells.

A shell is given the variables that are exported, the descriptors and the working directory,
and its arguments say where its script comes from. -/
namespace NotebookTidy.Shell
open Files

/-! ### A new shell -/

/-- The path by which a shell knows its working directory: the one that it is given, if that
leads there. -/
def State.givenPath (s : State) : String :=
  match s.binding? "PWD" with
  | some ⟨some path, true, _⟩ =>
    let leads := path.startsWith "/"
      && (s.tree.resolve (State.pathOf path)).toOption == some s.tree.workDir
    if leads then path else s.directory
  | _ => s.directory

/-- The variables with which a shell starts, besides those that it is given. -/
def startVariables (s : State) : List (String × Variable) :=
  [("IFS", " \t\n"), ("OPTIND", "1"), ("PS1", "# "), ("PS2", "> "), ("PS4", "+ "),
      ("PPID", toString (s.parents.head?.getD 0))].map
      (fun v => (v.1, ⟨some v.2, false, false⟩))
    ++ [("PWD", ⟨some s.givenPath, true, false⟩)]

/-- A shell that is started in this process. -/
def State.newShell (s : State) (name : String) : State :=
  let given := s.bindings.filter fun v => v.2.exported && v.2.value.isSome
  let own := startVariables s
  { s with
    bindings := given.filter (fun v => !own.any (·.1 == v.1)) ++ own
    descriptors := s.descriptors.filter (·.1 < 10)
    functions := []
    name := name
    arguments := []
    options := []
    status := 0
    outputStatus := 0
    line := 0
    metEnd := false
    tracing := false
    builtin := none
    flow := .next
    loops := 0
    hidden := []
    traps := []
    deaf := s.deaf ++ (s.traps.filter (·.2 == "")).map Prod.fst
    pending := []
    statusBefore := none
    shellProcess := s.process
    aliases := []
    optionIndex := 1
    optionPlace := 0
    readers := []
    calls := 0
    hashed := []
    jobs := []
    lastJob := none
    walked := s.givenPath }

/-! ### Its script -/

/-- A script, as far as it is there, and where the rest of it comes from. -/
abbrev Script := List Char × Feed

/-- A descriptor that no script can name. -/
def State.freeDescriptor (s : State) : Nat :=
  (s.descriptors.map Prod.fst).foldl (fun n d => max n (d + 1)) 10

/-- Opens a script for reading. -/
def Act.openScript (path : String) : Act Nat := do
  let s ← get
  match s.openFile path .read with
  | .error e => Act.fail ("cannot open " ++ path ++ ": " ++ openReason .read e)
  | .ok (i, t) =>
    let d := s.freeDescriptor
    set (t.connect d i)
    return d

section Running
variable (evaluate : Evaluator)

/-- Commands that are read from a descriptor. -/
def Feed.of (descriptor : Nat) : Feed := ⟨some descriptor, some (expandPrompt evaluate)⟩

/-- The script that the arguments of a shell ask for. -/
def shellScript (args : List String) : Act Script := do
  let r ← setOptions true args
  modify fun s => { s with readers := [1] }
  let refused := args.any fun arg => arg.startsWith "+" && arg.contains 'm'
  if (← get).has 'i' && !refused then modify (State.setOption · 'm' true)
  if r.script then
    match r.rest with
    | [] => Act.fail "-c requires an argument"
    | script :: more =>
      match more with
      | [] => pure ()
      | name :: more => modify fun s => { s with name := name, arguments := more }
      Act.controlJobs
      return (script.toList, .none)
  else
    let fromInput := r.rest.isEmpty || (← get).has 's'
    if fromInput then
      modify fun s => { s.setOption 's' true with arguments := r.rest, readers := [] }
      Act.controlJobs
      return ([], .of evaluate 0)
    else
      let name := r.rest.head?.getD ""
      let d ← Act.openScript name
      modify fun s => { s with name := name, arguments := r.rest.tail }
      Act.controlJobs
      return ([], .of evaluate d)

/-- Goes on with the input after an error, if the shell asks for its commands. -/
def askAfterError (f : Feed) (s : State) : State :=
  if s.has 'i' && f.descriptor != some 0 then
    match s.recovered? with
    | some s => runScript evaluate .plain (.of evaluate 0) [] s
    | none => s
  else s

/-- Runs a script and, where the options say so, the input after it. -/
def runInvocation (s : State) (script : Script) : State :=
  let (text, f) := script
  let t := askAfterError evaluate f (runScript evaluate .plain f text { s with line := 1 })
  let leaves := match t.flow with
    | .next | .returns _ => false
    | _ => true
  if f.descriptor.isNone && t.has 's' && !leaves then
    runScript evaluate .plain (.of evaluate 0) [] { t with flow := .next }
  else t

/-- Runs a shell, by this name and with these arguments. -/
def runShell (name : String) (args : List String) (s : State) : State :=
  match (shellScript evaluate args).run (s.newShell name) with
  | (none, t) => t
  | (some script, t) => runAtExit evaluate (runInvocation evaluate t script)

/-! ### Programs -/

/-- Runs a program in this process. -/
def runProgram (p : Program) (name : String) (args : List String) (s : State) : State :=
  match p with
  | .succeed => { s with status := 0 }
  | .fail => { s with status := 1 }
  | .concatenate => concatenate name args s
  | .translate => translate name args s
  | .shell => runShell evaluate name args s

end Running
end NotebookTidy.Shell
