import NotebookTidy.Shell.Variables

/-! The options and the arguments of a shell. -/
namespace NotebookTidy.Shell

def optionNames : List (String × Option Char) :=
  [("errexit", some 'e'), ("noglob", some 'f'), ("ignoreeof", some 'I'), ("interactive", some 'i'),
    ("monitor", some 'm'), ("noexec", some 'n'), ("stdin", some 's'), ("xtrace", some 'x'),
    ("verbose", some 'v'), ("vi", some 'V'), ("emacs", some 'E'), ("noclobber", some 'C'),
    ("allexport", some 'a'), ("notify", some 'b'), ("nounset", some 'u'),
    ("privileged", some 'p'), ("nolog", none), ("debug", none)]

def State.setOption (s : State) (c : Char) (on : Bool) : State :=
  { s with options := (if on then [c] else []) ++ s.options.filter (· != c) }

/-- Sets an option by its letter. The two styles of editing exclude each other then. -/
def State.setLetter (s : State) (c : Char) (on : Bool) : State :=
  let s := s.setOption c on
  if on && c == 'V' then s.setOption 'E' false
  else if on && c == 'E' then s.setOption 'V' false
  else s

/-- The options, as a list or as commands. They all count as set as long as the shell is
being called. -/
def State.optionReport (s : State) (calling on : Bool) : String :=
  let isOn (letter : Option Char) : Bool := calling || letter.any s.has
  if on then
    "Current option settings\n" ++ String.join (optionNames.map fun (name, letter) =>
      name ++ String.ofList (List.replicate (16 - name.length) ' ')
        ++ (if isOn letter then "on" else "off") ++ "\n")
  else
    String.join (optionNames.map fun (name, letter) =>
      "set " ++ (if isOn letter then "-" else "+") ++ "o " ++ name ++ "\n")

/-- What was read of options of the shell. -/
structure ShellOptions where
  rest : List String
  /-- The options were ended by hyphens. -/
  ended : Bool
  /-- The text of a script is among the arguments. -/
  script : Bool

/-- Sets the option that has the first name among the arguments, or shows all options if
there is none. -/
def setNamedOption (calling : Bool) (sign : Char) (args : List String) : Act Unit := do
  let on := sign == '-'
  match args with
  | [] =>
    let _ ← Act.printText "set" ((← get).optionReport calling on)
  | name :: _ =>
    match optionNames.find? (·.1 == name) with
    | some (_, some c) => modify fun s => s.setOption c on
    | some (_, none) => pure ()
    | none => Act.fail ("Illegal option -o " ++ name)

/-- Sets options by their letters, some of which take a name from the arguments. Whether one
of them asks for the text of a script. -/
def setLetters (calling : Bool) (sign : Char) : List Char → (args : List String) → Act Bool
  | [], _ => return false
  | c :: cs, args => do
    if c = 'o' then
      setNamedOption calling sign args
      setLetters calling sign cs (args.drop 1)
    else if c = 'c' ∧ calling then
      let _ ← setLetters calling sign cs args
      return true
    else if c = 'l' ∧ calling then setLetters calling sign cs args
    else
      if !(optionNames.any fun o => o.2 == some c) then
        Act.fail ("Illegal option -" ++ String.ofList [c])
      modify fun s => s.setLetter c (sign == '-')
      setLetters calling sign cs args

/-- Sets options. `calling` is set when they stand behind the name of the shell. -/
def setOptions (calling : Bool) : (args : List String) → Act ShellOptions
  | [] => return ⟨[], false, false⟩
  | arg :: args => do
    match arg.toList with
    | ['-'] =>
      if !calling then modify fun s => (s.setOption 'x' false).setOption 'v' false
      return ⟨args, false, false⟩
    | ['-', '-'] => return ⟨args, true, false⟩
    | sign :: cs =>
      if sign = '-' ∨ sign = '+' then
        let script ← setLetters calling sign cs args
        let r ← setOptions calling (args.drop (cs.count 'o'))
        return { r with script := r.script || script }
      else return ⟨arg :: args, false, false⟩
    | [] => return ⟨arg :: args, false, false⟩
termination_by args => args.length
decreasing_by simp only [List.length_drop, List.length_cons]; omega

/-- Tries to control jobs if that is asked for, which takes a terminal. -/
def Act.controlJobs : Act Unit := do
  let s ← get
  if s.has 'm' && s.process == s.shellProcess then
    set ((s.complain "can't access tty; job control turned off").setOption 'm' false)

def setArguments (args : List String) : Act Nat := do
  if args.isEmpty then Act.printText "set" ((← get).shownVariables "" fun v => v.value.isSome)
  else
    let r ← setOptions false args
    Act.controlJobs
    if r.ended || !r.rest.isEmpty then
      modify fun s => { s with arguments := r.rest, optionIndex := 1, optionPlace := 0 }
    return 0

def shiftArguments (args : List String) : Act Nat := do
  let n ← match args with
    | [] => pure 1
    | n :: _ => Act.number n
  let s ← get
  if s.arguments.length < n then Act.fail "can't shift that many"
  set { s with arguments := s.arguments.drop n, optionIndex := 1, optionPlace := 0 }
  return 0

end NotebookTidy.Shell
