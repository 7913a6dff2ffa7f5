import NotebookTidy.Shell.Action
import NotebookTidy.Shell.Fields

/-! The variables of a shell. -/
namespace NotebookTidy.Shell

/-- The name and the value of an argument that may hold both. -/
def nameAndValue (arg : String) : String × Option String :=
  let cs := arg.toList
  let name := cs.takeWhile (· != '=')
  (String.ofList name,
    if name.length < cs.length then some (String.ofList (cs.drop (name.length + 1))) else none)

/-- Makes sure that a variable can have this name. -/
def Act.checkName (name : String) : Act Unit := do
  if !isName name then Act.fail (name ++ ": bad variable name")

/-- The name of a variable in an argument; what follows an equals sign does not count. -/
def Act.variableName (arg : String) : Act String := do
  let name := (nameAndValue arg).1
  Act.checkName name
  return name

/-- A value in quotes, so that a shell reads it back. -/
def quotedValue : (fuel : Nat) → List Char → List Char
  | 0, _ => []
  | fuel + 1, cs =>
    let part := cs.takeWhile (· != '\'')
    let rest := cs.drop part.length
    let quotes := rest.takeWhile (· == '\'')
    let after := rest.drop quotes.length
    ['\''] ++ part ++ ['\''] ++
      (if quotes.isEmpty then [] else
        ['"'] ++ quotes ++ ['"'] ++ (if after.isEmpty then [] else quotedValue fuel after))

def shellQuoted (s : String) : String := String.ofList (quotedValue (s.length + 1) s.toList)

/-- The variables of some kind, as commands that set them again. -/
def State.shownVariables (s : State) (command : String) (chosen : Variable → Bool) : String :=
  let shown := (s.bindings.filter fun v => chosen v.2).mergeSort fun a b =>
    comesBefore a.1.toList b.1.toList
  String.join (shown.map fun (name, v) =>
    (if command = "" then "" else command ++ " ") ++ match v.value with
      | some value => name ++ "=" ++ shellQuoted value ++ "\n"
      | none => name ++ "\n")

/-- Gives variables values and a property. -/
def markVariables (command : String) (mark : Variable → Variable) (marked : Variable → Bool)
    (args : List String) : Act Nat := do
  let names ← match args.map String.toList, args with
    | ['-', '-'] :: _, _ :: names => pure names
    | ('-' :: 'p' :: _) :: _, _ => pure []
    | ('-' :: c :: _) :: _, _ => Act.fail ("Illegal option -" ++ String.ofList [c])
    | _, names => pure names
  if !names.isEmpty then
    for arg in names do
      let (name, value) := nameAndValue arg
      Act.checkName name
      match value with
      | some value => Act.assign name value
      | none => pure ()
      modify fun s => s.putVariable name (mark ((s.binding? name).getD ⟨none, false, false⟩))
    return 0
  else Act.printText command ((← get).shownVariables command marked)

def State.exportVariable (s : State) (name : String) : State :=
  match s.binding? name with
  | some v => s.putVariable name { v with exported := true }
  | none => s

/-- The variables of the shell itself, which are always there. -/
def lastingVariables : List String := ["IFS", "OPTIND", "PATH", "PS1", "PS2", "PS4"]

/-- Takes a variable away. One of the shell itself, or of a function, only has no value
after that. -/
def State.unset (s : State) (name : String) : State :=
  let hides := s.hidden.any (·.any fun h => match h with
    | .variable hiddenName _ => hiddenName == name
    | .options _ => false)
  let s := s.noteValue name ""
  match s.binding? name with
  | none => s
  | some v =>
    if hides || lastingVariables.contains name then s.putVariable name { v with value := none }
    else s.dropVariable name

def unsetNames (args : List String) : Act Nat := do
  let (given, names) ← Act.options ['v', 'f'] args
  for name in names do
    if given.getLast? = some 'f' then
      modify fun s => { s with functions := s.functions.filter (·.1 != name) }
    else
      let name ← Act.variableName name
      match (← get).valueFault? name "" with
      | some what => Act.fail what
      | none => modify (State.unset · name)
  return 0

/-- Hides variables from outside of a function. -/
def hideNames (args : List String) : Act Nat := do
  for arg in args do
    let s ← get
    match s.hidden with
    | [] => Act.fail "not in a function"
    | frame :: frames =>
      if arg = "-" then set { s with hidden := (.options s.options :: frame) :: frames }
      else
        let (name, value) := nameAndValue arg
        if value.isNone then Act.checkName name
        set { s with hidden := (.variable name (s.binding? name) :: frame) :: frames }
        match value with
        | some value => Act.assign name value
        | none =>
          if (s.binding? name).isNone then
            modify fun s => s.putVariable name ⟨none, s.has 'a', false⟩
  if (← get).hidden.isEmpty then Act.fail "not in a function"
  return 0

end NotebookTidy.Shell
