import NotebookTidy.Shell.Variables

/-! The search of scripts for the options among their arguments. -/
namespace NotebookTidy.Shell

/-- Where the search for options stands. -/
structure OptionSearch where
  letter : Char
  /-- What there is no more of. -/
  done : Bool
  index : Nat
  place : Nat
  value : Option String
  complaint : Option String

/-- Whether an option takes a value, if it is one. -/
def optionTakesValue? (c : Char) : List Char → Option Bool
  | [] => none
  | d :: ':' :: rest => if d = c then some true else optionTakesValue? c rest
  | d :: rest => if d = c then some false else optionTakesValue? c rest

/-- Looks for the next option among arguments. -/
def nextOption (form : List Char) (args : List String) (index place : Nat) : OptionSearch :=
  let silent := form.head? = some ':'
  let current := if index < 2 ∨ place = 0 then [] else
    ((args[index - 2]?.getD "").toList).drop place
  let fresh : Option (List Char × Nat × Nat) :=
    if !current.isEmpty then some (current, index, place)
    else match (args[index - 1]?.map String.toList) with
      | some ('-' :: c :: cs) =>
        if c = '-' ∧ cs.isEmpty then none else some (c :: cs, index + 1, 1)
      | _ => none
  match fresh with
  | none =>
    let index := if current.isEmpty ∧ args[index - 1]? = some "--" then index + 1 else index
    ⟨'?', true, index, 0, none, none⟩
  | some (cs, index, place) =>
    let c := cs.head?.getD '?'
    let rest := cs.tail
    let place := place + 1
    let shown := String.ofList [c]
    match optionTakesValue? c form with
    | none =>
      if silent then ⟨'?', false, index, place, some shown, none⟩
      else ⟨'?', false, index, place, none, some ("Illegal option -" ++ shown ++ "\n")⟩
    | some false => ⟨c, false, index, place, some "", none⟩
    | some true =>
      if !rest.isEmpty then ⟨c, false, index, 0, some (String.ofList rest), none⟩
      else match args[index - 1]? with
        | some value => ⟨c, false, index + 1, 0, some value, none⟩
        | none =>
          if silent then ⟨':', false, index, 0, some shown, none⟩
          else ⟨'?', false, index, 0, none, some ("No arg for -" ++ shown ++ " option\n")⟩

def takeOption (args : List String) : Act Nat := do
  match args with
  | form :: name :: more =>
    let s ← get
    let given := if more.isEmpty then s.arguments else more
    let index := if given.length + 1 < s.optionIndex then 1 else s.optionIndex
    let r := nextOption form.toList given index s.optionPlace
    match r.complaint with
    | some c => Act.tell c
    | none => pure ()
    match r.value with
    | some value => Act.assign "OPTARG" value
    | none => if !r.done then modify (State.unset · "OPTARG")
    Act.assign "OPTIND" (toString r.index)
    modify fun s => { s with optionIndex := 1, optionPlace := 0 }
    Act.assign (← Act.variableName name) (String.ofList [r.letter])
    modify fun s => { s with optionIndex := r.index, optionPlace := r.place }
    return if r.done then 1 else 0
  | _ => Act.fail "Usage: getopts optstring var [arg...]"

end NotebookTidy.Shell
