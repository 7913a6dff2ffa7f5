import NotebookTidy.Shell.Programs
import NotebookTidy.Shell.Reader
import NotebookTidy.Shell.Variables

/-! What the names of commands stand for.

A name may be an alias of other text, or that of a function, of a command of the shell or of
a program, which is looked up in some directories. -/
namespace NotebookTidy.Shell

/-- The commands that are part of the shell and of no special kind. -/
def regularBuiltins : List String :=
  ["[", "alias", "bg", "cd", "chdir", "command", "echo", "false", "fg", "getopts", "hash", "jobs",
    "kill", "printf", "pwd", "read", "test", "true", "type", "ulimit", "umask", "unalias", "wait"]

/-- The line that shows what a name is an alias of. -/
def aliasLine (a : String × String) : String := a.1 ++ "=" ++ shellQuoted a.2

/-- Whether a name calls a command that the shell runs itself. -/
def State.isCommandOfShell (s : State) (name : String) : Bool :=
  specialBuiltins.contains name || regularBuiltins.contains name
    || s.functions.any (·.1 == name)

/-- What a name stands for: in full, or as it can be called. -/
def State.describe (s : State) (directories : List String) (inFull : Bool) (name : String) :
    Option String :=
  let builtin (kind : String) := some (if inFull then name ++ " is a " ++ kind else name)
  if keywords.contains name then builtin "shell keyword"
  else match s.aliases.find? (·.1 == name) with
    | some a =>
      some (if inFull then name ++ " is an alias for " ++ a.2 else "alias " ++ aliasLine a)
    | none =>
      if specialBuiltins.contains name then builtin "special shell builtin"
      else if s.functions.any (·.1 == name) then builtin "shell function"
      else if regularBuiltins.contains name then builtin "shell builtin"
      else if name.contains '/' then
        if (s.kind? name).isNone then none
        else some (if inFull then name ++ " is " ++ name else name)
      else match s.findProgram directories name with
        | .ok (path, _) =>
          some (if !inFull then path
            else if s.hashed.contains name then name ++ " is a tracked alias for " ++ path
            else name ++ " is " ++ path)
        | .error _ => none

/-- Says what names stand for. -/
def describeNames (command : String) (inFull : Bool) : List String → Act Nat
  | [] => return 0
  | name :: names => do
    let s ← get
    let (text, found) := match s.describe s.searchPath inFull name with
      | some text => (text ++ "\n", 0)
      | none => (if inFull then name ++ ": not found\n" else "", 127)
    let status ← Act.printText command text
    modify (State.lookUp · name)
    let rest ← describeNames command inFull names
    return found ||| status ||| rest

/-- Says what a command stands for, or nothing. -/
def describeCommand (args : List String) : Act Nat := do
  let (given, names) ← Act.options ['p', 'v', 'V'] args
  let s ← get
  let inFull := given.contains 'V'
  match names with
  | name :: _ =>
    if !inFull && !given.contains 'v' then return 0
    else if given.contains 'p' then
      match s.describe State.usualPath inFull name with
      | some text => Act.printText "command" (text ++ "\n")
      | none =>
        let _ ← Act.printText "command" (if inFull then name ++ ": not found\n" else "")
        return 127
    else describeNames "command" inFull [name]
  | [] => return 0

/-- The shelf on which a name is put by its letters. -/
def shelfOf (shelves : Nat) (name : String) : Nat :=
  let letters := name.toList.map Char.toNat
  (letters.head?.getD 0 * 16 + letters.foldl (· + ·) 0) % shelves

/-- Names with what belongs to them, by their shelves; on a shelf they keep their order. -/
def byShelf {α : Type} (shelves : Nat) (entries : List (String × α)) : List (String × α) :=
  (List.range shelves).flatMap fun shelf =>
    entries.filter fun (name, _) => shelfOf shelves name == shelf

/-- Looks programs up, or shows those that have been looked up. -/
def hashNames (args : List String) : Act Nat := do
  let (given, names) ← Act.options ['r'] args
  if !given.isEmpty then
    modify fun s => { s with hashed := [] }
    return 0
  else if names.isEmpty then
    let s ← get
    let lines := (byShelf 31 (s.hashed.map (·, ()))).filterMap fun (name, _) =>
      (s.findProgram s.searchPath name).toOption.map fun found => found.1 ++ "\n"
    Act.printText "hash" (String.join lines)
  else
    let mut status := 0
    for name in names do
      modify (State.lookUp · name)
      let s ← get
      if !name.contains '/' && !s.isCommandOfShell name then
        match s.findProgram s.searchPath name with
        | .ok _ => pure ()
        | .error f =>
          set (s.complain (name ++ ": " ++ f.reason))
          status := 1
    return status

/-! ### Aliases -/

def State.aliasReport (s : State) : String :=
  String.join ((byShelf 39 s.aliases).map fun a => aliasLine a ++ "\n")

/-- The name and the text of an alias, from an argument. The name is not empty. -/
def aliasParts (arg : String) : String × Option String :=
  let first := String.ofList (arg.toList.take 1)
  let (name, value) := nameAndValue (String.ofList (arg.toList.drop 1))
  (first ++ name, value)

/-- Sets other names, or shows what they stand for. -/
def setAliases : List String → Act Nat
  | [] => return 0
  | arg :: args => do
    let (name, value) := aliasParts arg
    let s ← get
    let status ← match value with
      | some value =>
        set { s with aliases :=
          if s.aliases.any (·.1 == name) then
            s.aliases.map fun (n, v) => (n, if n = name then value else v)
          else s.aliases ++ [(name, value)] }
        pure 0
      | none =>
        match s.aliases.find? (·.1 == name) with
        | some a => Act.printText "alias" (aliasLine a ++ "\n")
        | none => do
          Act.tell ("alias: " ++ name ++ " not found\n")
          pure 1
    let rest ← setAliases args
    return status ||| rest

def dropAliases (args : List String) : Act Nat := do
  if (args.head?.getD "").startsWith "-a" then
    modify fun s => { s with aliases := [] }
    return 0
  let (_, names) ← Act.options ['a'] args
  let known := (← get).aliases.map Prod.fst
  let unknown := names.filter fun name => !known.contains name
  for name in unknown do
    Act.tell ("unalias: " ++ name ++ " not found\n")
  modify fun s => { s with aliases := s.aliases.filter fun a => !names.contains a.1 }
  return if unknown.isEmpty then 0 else 1

end NotebookTidy.Shell
