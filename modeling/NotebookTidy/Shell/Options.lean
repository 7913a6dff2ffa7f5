import NotebookTidy.Shell.Octets

/-! Options of programs.

Letters may stand together behind one hyphen. A long option may be cut short as long as it
is clear which one is meant. Two hyphens end the options. -/
namespace NotebookTidy.Shell

structure OptionTable where
  letters : List Char
  /-- Long options, and the letters that they stand for. -/
  words : List (String × Char)
  /-- Options may also come after other arguments. -/
  anywhere : Bool

/-- The options of a program and its other arguments, or what is wrong with them. -/
abbrev ParsedOptions := Except String (List Char × List String)

namespace OptionTable

/-- What the long options stand for that ask a program about itself. -/
def aboutItself : Char := 'h'

/-- All long options. -/
def allWords (t : OptionTable) : List (String × Char) :=
  t.words ++ [("help", aboutItself), ("version", aboutItself)]

/-- The letter of a long option, which comes without its hyphens. -/
def word (t : OptionTable) (arg : List Char) : Except String Char :=
  let name := arg.takeWhile (· != '=')
  let text := String.ofList arg
  let candidates : List (String × Char) :=
    match t.allWords.filter (·.1.toList == name) with
    | [] => t.allWords.filter fun (w : String × Char) => name.isPrefixOf w.1.toList
    | exact => exact
  match candidates with
  | [] => .error ("unrecognized option '--" ++ text ++ "'")
  | [(w, c)] =>
    if name.length < arg.length then .error ("option '--" ++ w ++ "' doesn't allow an argument")
    else .ok c
  | ws =>
    .error ("option '--" ++ text ++ "' is ambiguous; possibilities:"
      ++ String.join (ws.map fun w => " '--" ++ w.1 ++ "'"))

/-- Checks letters behind a hyphen. -/
def checkLetters (t : OptionTable) : List Char → Except String Unit
  | [] => .ok ()
  | c :: cs =>
    if t.letters.contains c then t.checkLetters cs
    else .error ("invalid option -- '" ++ String.ofList [c] ++ "'")

/-- Takes options from arguments. Nothing counts after one that asks a program about
itself. -/
def parse (t : OptionTable) : List String → ParsedOptions
  | [] => .ok ([], [])
  | arg :: args =>
    match arg.toList with
    | ['-', '-'] => .ok ([], args)
    | '-' :: '-' :: name => do
      let c ← t.word name
      if c = aboutItself then return ([c], [])
      let (cs, rest) ← t.parse args
      return (c :: cs, rest)
    | '-' :: c :: cs => do
      t.checkLetters (c :: cs)
      let (more, rest) ← t.parse args
      return (c :: cs ++ more, rest)
    | _ =>
      if t.anywhere then do
        let (cs, rest) ← t.parse args
        return (cs, arg :: rest)
      else .ok ([], arg :: args)

end OptionTable

/-- How a program ends that was called with wrong options. -/
def usageComplaint (program what : String) : String :=
  program ++ ": " ++ what ++ "\nTry '" ++ program ++ " --help' for more information.\n"

end NotebookTidy.Shell
