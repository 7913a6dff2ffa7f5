import NotebookTidy.Config
import NotebookTidy.Json.Skip

/-! Reading a config from JSON.

Configs and commands are objects, or arrays of their parts in order. A part of the wrong
type is a fault where it ends if it has no parts of its own, and where it begins if it
has. A part that is missing, or is there twice, is a fault of the whole, and is placed
where the whole ends if it ends next. Members with other names are passed over. -/
namespace NotebookTidy.Config
open Json

/-! ### What is of the wrong type -/

/-- A scalar where something else was wanted, once it is read. -/
def mistypedAs (wanted : String) (found : α → Found) :
    Except Fault (α × List Char) → Fault
  | .ok (a, s) => .here (.invalidType (found a) wanted) s
  | .error f => f

def mistypedWord (wanted : String) (found : Found) : Except Fault (List Char) → Fault
  | .ok s => .here (.invalidType found wanted) s
  | .error f => f

/-- The fault of a value that is not what was wanted. -/
def mistyped (wanted : String) : List Char → Fault
  | [] => .here .eofInValue []
  | c :: s =>
    if c = 'n' then mistypedWord wanted .null (word ['u', 'l', 'l'] s)
    else if c = 't' then mistypedWord wanted (.bool true) (word ['r', 'u', 'e'] s)
    else if c = 'f' then mistypedWord wanted (.bool false) (word ['a', 'l', 's', 'e'] s)
    else if c = '-' then mistypedAs wanted .number (numberRest true s)
    else if isDigit c then mistypedAs wanted .number (numberRest false (c :: s))
    else if c = '"' then mistypedAs wanted .string (stringRest s)
    else if c = '[' then .here (.invalidType .sequence wanted) (c :: s)
    else if c = '{' then .here (.invalidType .map wanted) (c :: s)
    else .next .expectedValue (c :: s)

/-! ### Ends -/

/-- The text after the end of an object, if the object ends next. -/
def pastObjectEnd (s : List Char) : List Char :=
  match skipSpace s with
  | '}' :: s => s
  | s => s

/-- The end of an array that has all its items. -/
def arrayEnd (s : List Char) : Except Fault (List Char) :=
  match skipSpace s with
  | [] => .error (.here .eofInList [])
  | c :: s =>
    if c = ']' then .ok s
    else if c = ',' then
      match skipSpace s with
      | ']' :: s => .error (.next .trailingComma (']' :: s))
      | s => .error (.next .trailingCharacters s)
    else .error (.next .trailingCharacters (c :: s))

/-! ### Parts -/

def readString (s : List Char) : Except Fault (String × List Char) :=
  match skipSpace s with
  | [] => .error (.here .eofInValue [])
  | '"' :: s => stringRest s
  | s => .error (mistyped "a string" s)

def readBool (s : List Char) : Except Fault (Bool × List Char) :=
  match skipSpace s with
  | [] => .error (.here .eofInValue [])
  | 't' :: s => (word ['r', 'u', 'e'] s).map fun s => (true, s)
  | 'f' :: s => (word ['a', 'l', 's', 'e'] s).map fun s => (false, s)
  | s => .error (mistyped "a boolean" s)

/-- Reads the items of an array and its closing bracket. -/
def itemsOf (readItem : List Char → Except Fault (α × List Char)) (fuel : Nat) (first : Bool)
    (s : List Char) : Except Fault (List α × List Char) :=
  match fuel with
  | 0 => .error (.here .eofInList s)
  | fuel + 1 =>
    match nextItem first s with
    | .error f => .error f
    | .ok none => .ok ([], pastClose s)
    | .ok (some s) => do
      let (item, s) ← readItem s
      let (items, s) ← itemsOf readItem fuel false s
      .ok (item :: items, s)

def readList (readItem : List Char → Except Fault (α × List Char)) (s : List Char) :
    Except Fault (List α × List Char) :=
  match skipSpace s with
  | [] => .error (.here .eofInValue [])
  | '[' :: s => itemsOf readItem (s.length + 1) true s
  | s => .error (mistyped "a sequence" s)

/-- Reads the next part of a whole that is given as an array; `none` when there are no
more. -/
def nextPart (readPart : List Char → Except Fault (α × List Char)) (first : Bool)
    (s : List Char) : Except Fault (Option α × List Char) :=
  match nextItem first s with
  | .error f => .error f
  | .ok none => .ok (none, s)
  | .ok (some s) => (readPart s).map fun (a, s) => (some a, s)

/-- Reads the part that a key stands for, unless it is there already. -/
def namedPart (name : String) (known : Option α)
    (readPart : List Char → Except Fault (α × List Char)) (s : List Char) :
    Except Fault (Option α × List Char) :=
  match known with
  | some _ => .error (.here (.duplicateField name) (pastObjectEnd s))
  | none => do
    let s ← colon s
    let (a, s) ← readPart s
    .ok (some a, s)

/-- Passes a member that has no meaning. -/
def skipPart (s : List Char) : Except Fault (List Char) := do
  let s ← colon s
  skipValue (fuelFor s) s

/-! ### Commands -/

def commandType : String := "struct CommandSpec"

/-- Reads the members of a command and its closing brace. -/
def commandMembers (fuel : Nat) (first : Bool) (program : Option String)
    (args : Option (List String)) (s : List Char) : Except Fault (Command × List Char) :=
  match fuel with
  | 0 => .error (.here .eofInObject s)
  | fuel + 1 =>
    match nextKey first s with
    | .error f => .error f
    | .ok none =>
      match program with
      | none => .error (.here (.missingField "program") (pastClose s))
      | some program => .ok (⟨program, args.getD []⟩, pastClose s)
    | .ok (some s) => do
      let (key, s) ← stringRest s
      if key = "program" then
        let (program, s) ← namedPart key program readString s
        commandMembers fuel false program args s
      else if key = "args" then
        let (args, s) ← namedPart key args (readList readString) s
        commandMembers fuel false program args s
      else
        let s ← skipPart s
        commandMembers fuel false program args s

/-- Reads a command that is given as an array, after its opening bracket. -/
def commandItems (s : List Char) : Except Fault (Command × List Char) := do
  let (program, s) ← nextPart readString true s
  match program with
  | none => .error (.here (.invalidLength 0 (commandType ++ " with 2 elements")) (pastClose s))
  | some program =>
    let (args, s) ← nextPart (readList readString) false s
    let s ← arrayEnd s
    .ok (⟨program, args.getD []⟩, s)

def readCommand (s : List Char) : Except Fault (Command × List Char) :=
  match skipSpace s with
  | [] => .error (.here .eofInValue [])
  | '[' :: s => commandItems s
  | '{' :: s => commandMembers (s.length + 1) true none none s
  | s => .error (mistyped commandType s)

/-! ### Configs -/

/-- Reads the members of a config and its closing brace. -/
def draftMembers (fuel : Nat) (first : Bool) (d : Draft) (s : List Char) :
    Except Fault (Draft × List Char) :=
  match fuel with
  | 0 => .error (.here .eofInObject s)
  | fuel + 1 =>
    match nextKey first s with
    | .error f => .error f
    | .ok none => .ok (d, pastClose s)
    | .ok (some s) => do
      let (key, s) ← stringRest s
      if key = "python" then
        let (python, s) ← namedPart key d.python (readList readCommand) s
        draftMembers fuel false { d with python } s
      else if key = "julia" then
        let (julia, s) ← namedPart key d.julia readCommand s
        draftMembers fuel false { d with julia } s
      else if key = "julia_probe" then
        let (juliaProbe, s) ← namedPart key d.juliaProbe readCommand s
        draftMembers fuel false { d with juliaProbe } s
      else if key = "mask_magics" then
        let (maskMagics, s) ← namedPart key d.maskMagics readBool s
        draftMembers fuel false { d with maskMagics } s
      else
        let s ← skipPart s
        draftMembers fuel false d s

/-- Reads a config that is given as an array, after its opening bracket. -/
def draftItems (s : List Char) : Except Fault (Draft × List Char) := do
  let (python, s) ← nextPart (readList readCommand) true s
  let (julia, s) ← nextPart readCommand false s
  let (juliaProbe, s) ← nextPart readCommand false s
  let (maskMagics, s) ← nextPart readBool false s
  let s ← arrayEnd s
  .ok (⟨python, julia, juliaProbe, maskMagics⟩, s)

def readDraft (s : List Char) : Except Fault (Draft × List Char) :=
  match skipSpace s with
  | [] => .error (.here .eofInValue [])
  | '[' :: s => draftItems s
  | '{' :: s => draftMembers (s.length + 1) true .blank s
  | s => .error (mistyped "struct CleanerConfig" s)

def readJsonText (s : List Char) : Except Fault Config := do
  let (d, s) ← readDraft s
  endOfText s
  .ok d.complete

/-- The config that a JSON text gives. -/
def readJson (text : String) : Except Json.Error Config :=
  (readJsonText text.toList).mapError (·.toError text.toList)

end NotebookTidy.Config
