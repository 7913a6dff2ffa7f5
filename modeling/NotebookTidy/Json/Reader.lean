import NotebookTidy.Json.NumberScan

/-! Reading a JSON text into a value.

Arrays and objects may be nested 127 deep. The members of an object are entered in
the order they are read, so that of several with one key the first gives the place and
the last the value. -/
namespace NotebookTidy.Json

/-- How many arrays and objects may be open at once. -/
def maxDepth : Nat := 127

/-- A colon between a key and its value. -/
def colon (s : List Char) : Except Fault (List Char) :=
  match skipSpace s with
  | [] => .error (.here .eofInObject [])
  | c :: s => if c = ':' then .ok s else .error (.next .expectedColon (c :: s))

/-- Goes to the next item of an array, past the comma unless it is the first; `none`
at the closing bracket, which is not read. -/
def nextItem (first : Bool) (s : List Char) : Except Fault (Option (List Char)) :=
  match skipSpace s with
  | [] => .error (.here .eofInList [])
  | c :: s =>
    if c = ']' then .ok none
    else if first then .ok (some (c :: s))
    else if c = ',' then
      match skipSpace s with
      | [] => .error (.here .eofInValue [])
      | d :: s => if d = ']' then .error (.next .trailingComma (d :: s)) else .ok (some (d :: s))
    else .error (.next .expectedListCommaOrEnd (c :: s))

/-- Goes to the next key of an object, past its opening quote; `none` at the closing
brace, which is not read. -/
def nextKey (first : Bool) (s : List Char) : Except Fault (Option (List Char)) :=
  match skipSpace s with
  | [] => .error (.here .eofInObject [])
  | c :: s =>
    if c = '}' then .ok none
    else if first then
      if c = '"' then .ok (some s) else .error (.next .keyNotString (c :: s))
    else if c = ',' then
      match skipSpace s with
      | [] => .error (.here .eofInValue [])
      | d :: s =>
        if d = '"' then .ok (some s)
        else if d = '}' then .error (.next .trailingComma (d :: s))
        else .error (.next .keyNotString (d :: s))
    else .error (.next .expectedObjectCommaOrEnd (c :: s))

/-- The text after the closing bracket or brace that comes next. -/
def pastClose (s : List Char) : List Char := (skipSpace s).tail

mutual
/-- Reads a value. `fuel` bounds the calls and `depth` the arrays and objects that may
still be opened. -/
def readValue (fuel depth : Nat) (s : List Char) : Except Fault (Value × List Char) :=
  match fuel with
  | 0 => .error (.here .eofInValue s)
  | fuel + 1 =>
    match skipSpace s with
    | [] => .error (.here .eofInValue [])
    | c :: s =>
      if c = 'n' then do
        let s ← word ['u', 'l', 'l'] s
        .ok (.null, s)
      else if c = 't' then do
        let s ← word ['r', 'u', 'e'] s
        .ok (.bool true, s)
      else if c = 'f' then do
        let s ← word ['a', 'l', 's', 'e'] s
        .ok (.bool false, s)
      else if c = '-' then do
        let (n, s) ← numberRest true s
        .ok (.number n, s)
      else if isDigit c then do
        let (n, s) ← numberRest false (c :: s)
        .ok (.number n, s)
      else if c = '"' then do
        let (t, s) ← stringRest s
        .ok (.string t, s)
      else if c = '[' then
        match depth with
        | 0 => .error (.next .recursionLimit (c :: s))
        | depth + 1 => do
          let (items, s) ← readItems fuel depth true s
          .ok (.array items, s)
      else if c = '{' then
        match depth with
        | 0 => .error (.next .recursionLimit (c :: s))
        | depth + 1 => do
          let (pairs, s) ← readPairs fuel depth true s
          .ok (.object (Members.ofPairs pairs), s)
      else .error (.next .expectedValue (c :: s))

/-- Reads the items of an array and its closing bracket. -/
def readItems (fuel depth : Nat) (first : Bool) (s : List Char) :
    Except Fault (List Value × List Char) :=
  match fuel with
  | 0 => .error (.here .eofInList s)
  | fuel + 1 =>
    match nextItem first s with
    | .error f => .error f
    | .ok none => .ok ([], pastClose s)
    | .ok (some s) => do
      let (v, s) ← readValue fuel depth s
      let (vs, s) ← readItems fuel depth false s
      .ok (v :: vs, s)

/-- Reads the members of an object and its closing brace. -/
def readPairs (fuel depth : Nat) (first : Bool) (s : List Char) :
    Except Fault (List (String × Value) × List Char) :=
  match fuel with
  | 0 => .error (.here .eofInObject s)
  | fuel + 1 =>
    match nextKey first s with
    | .error f => .error f
    | .ok none => .ok ([], pastClose s)
    | .ok (some s) => do
      let (k, s) ← stringRest s
      let s ← colon s
      let (v, s) ← readValue fuel depth s
      let (ms, s) ← readPairs fuel depth false s
      .ok ((k, v) :: ms, s)
end

/-- Only blanks may follow a value. -/
def endOfText (s : List Char) : Except Fault Unit :=
  match skipSpace s with
  | [] => .ok ()
  | s => .error (.next .trailingCharacters s)

/-- Calls enough for any text: each value and each step to the next item or member
reads a character. -/
def fuelFor (text : List Char) : Nat := 2 * text.length + 2

def readText (text : List Char) : Except Fault Value := do
  let (v, s) ← readValue (fuelFor text) maxDepth text
  endOfText s
  .ok v

/-- The value of a JSON text. -/
def read (text : String) : Except Error Value :=
  (readText text.toList).mapError (·.toError text.toList)

end NotebookTidy.Json
