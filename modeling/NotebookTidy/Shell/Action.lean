import NotebookTidy.Shell.State

/-! Actions of the shell.

An action changes the state and ends in a value, or in an error that has been told by
then. -/
namespace NotebookTidy.Shell

abbrev Act := OptionT (StateM State)

namespace Act
variable {α : Type}

def run (a : Act α) (s : State) : Option α × State := StateT.run (OptionT.run a) s

/-- Ends in an error. -/
def fail (what : String) : Act α := do
  modify fun s => { s.complain what with status := 2 }
  failure

/-- Gives a variable a value. -/
def assign (name value : String) : Act Unit := do
  match (← get).assign name value with
  | .ok s => set s
  | .error what => fail what

/-- Ends in a fault of syntax that shows only when a command is run. It is told with the line
up to which the script has been read. -/
def failReading (what : String) : Act α := do
  modify fun s => { s with line := s.readers.head?.getD s.line }
  fail ("Syntax error: " ++ what)

/-- Writes output; the status says whether that was possible. -/
def print (name : String) (out : List Char) : Act Nat := do
  if out.isEmpty then return 0
  let s ← get
  match s.write 1 (bytesOf out) with
  | .ok s => set s; return 0
  | .error _ =>
    set (s.complain (name ++ ": I/O error"))
    return 1

def printText (name text : String) : Act Nat := print name text.toList

def tell (message : String) : Act Unit := modify fun s => s.tell message

/-- The number of things that a text stands for. -/
def number (s : String) : Act Nat := do
  match State.countText? s with
  | some n => return n
  | none => fail ("Illegal number: " ++ s)

/-- The options behind a hyphen, given their letters and the arguments that follow. A letter
may need a value, which is the rest of its argument or the next one. -/
def optionLetters (letters withValue : List Char) (args : List String) :
    List Char → Act (List (Char × String) × List String)
  | [] => return ([], args)
  | c :: cs => do
    if withValue.contains c then
      match cs, args with
      | [], [] => fail ("No arg for -" ++ String.ofList [c] ++ " option")
      | [], value :: args => return ([(c, value)], args)
      | cs, args => return ([(c, String.ofList cs)], args)
    else
      if !letters.contains c then fail ("Illegal option -" ++ String.ofList [c])
      let (more, args) ← optionLetters letters withValue args cs
      return ((c, "") :: more, args)

/-- The options at the start of the arguments with their values, and the arguments after
them. -/
def optionsFrom (letters withValue : List Char) :
    (fuel : Nat) → List String → Act (List (Char × String) × List String)
  | 0, args => return ([], args)
  | _ + 1, [] => return ([], [])
  | fuel + 1, arg :: args =>
    match arg.toList with
    | ['-', '-'] => return ([], args)
    | '-' :: c :: cs => do
      let (given, args) ← optionLetters letters withValue args (c :: cs)
      let (more, args) ← optionsFrom letters withValue fuel args
      return (given ++ more, args)
    | _ => return ([], arg :: args)

def optionsWithValues (letters withValue : List Char) (args : List String) :
    Act (List (Char × String) × List String) :=
  optionsFrom letters withValue (args.length + 1) args

/-- The letters of options at the start of the arguments, and the arguments after them. -/
def options (letters : List Char) (args : List String) : Act (List Char × List String) := do
  let (given, args) ← optionsWithValues letters [] args
  return (given.map Prod.fst, args)

end Act
end NotebookTidy.Shell
