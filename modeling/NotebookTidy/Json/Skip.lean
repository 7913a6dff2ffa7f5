import NotebookTidy.Json.Reader

/-! Passing over a JSON value.

A value that nobody asks for still has to be JSON, but it is only looked at: its numbers
may be of any size, its escapes may stand for no character, and it may be nested as
deep as it likes. -/
namespace NotebookTidy.Json

/-! ### Numbers -/

def skipDigits (s : List Char) : List Char := s.dropWhile isDigit

/-- Passes an exponent after its `e`. -/
def skipExponent (s : List Char) : Except Fault (List Char) :=
  let s := match s with
    | '+' :: s => s
    | '-' :: s => s
    | s => s
  if startsWithDigit s then .ok (skipDigits s) else .error (.next .invalidNumber s)

/-- Passes what may follow the digits of a number. -/
def skipNumberEnd : List Char → Except Fault (List Char)
  | 'e' :: s => skipExponent s
  | 'E' :: s => skipExponent s
  | s => .ok s

/-- Passes what may follow the digits of an integer. -/
def skipAfterInteger : List Char → Except Fault (List Char)
  | '.' :: s =>
    if startsWithDigit s then skipNumberEnd (skipDigits s) else .error (.next .invalidNumber s)
  | s => skipNumberEnd s

/-- Passes a number after its sign. -/
def skipNumber : List Char → Except Fault (List Char)
  | [] => .error (.next .invalidNumber [])
  | c :: s =>
    if c = '0' then
      if startsWithDigit s then .error (.next .invalidNumber s) else skipAfterInteger s
    else if isDigit c then skipAfterInteger (skipDigits s)
    else .error (.next .invalidNumber (c :: s))

/-! ### Strings -/

/-- Passes an escape after its backslash, and tells how many characters that took. -/
def skipEscape : List Char → Except Fault Nat
  | [] => .error (.here .eofInString [])
  | c :: s =>
    if (letterEscape? c).isSome then .ok 1
    else if c = 'u' then (hexUnit s).map fun _ => 5
    else .error (.next .invalidEscape (c :: s))

/-- Passes a string up to its closing quote, first leaving out the `skip` characters of
an escape that is passed already. -/
def skipStringBody : (skip : Nat) → List Char → Except Fault (List Char)
  | _, [] => .error (.here .eofInString [])
  | skip + 1, _ :: s => skipStringBody skip s
  | 0, c :: s =>
    if c = '"' then .ok s
    else if c = '\\' then
      match skipEscape s with
      | .error f => .error f
      | .ok used => skipStringBody used s
    else if c.toNat < 0x20 then .error (.here .controlCharacter (c :: s))
    else skipStringBody 0 s

/-! ### Values -/

/-- Passes a key and its colon. -/
def skipKey (s : List Char) : Except Fault (List Char) :=
  match skipSpace s with
  | [] => .error (.here .eofInObject [])
  | c :: s => do
    if c = '"' then
      let s ← skipStringBody 0 s
      colon s
    else .error (.next .keyNotString (c :: s))

mutual
/-- Passes a value. `fuel` bounds the calls. -/
def skipValue (fuel : Nat) (s : List Char) : Except Fault (List Char) :=
  match fuel with
  | 0 => .error (.here .eofInValue s)
  | fuel + 1 =>
    match skipSpace s with
    | [] => .error (.here .eofInValue [])
    | c :: s =>
      if c = 'n' then word ['u', 'l', 'l'] s
      else if c = 't' then word ['r', 'u', 'e'] s
      else if c = 'f' then word ['a', 'l', 's', 'e'] s
      else if c = '-' then skipNumber s
      else if isDigit c then skipNumber (c :: s)
      else if c = '"' then skipStringBody 0 s
      else if c = '[' then
        match skipSpace s with
        | [] => .error (.here .eofInList [])
        | d :: s => if d = ']' then .ok s else skipItems fuel (d :: s)
      else if c = '{' then
        match skipSpace s with
        | [] => .error (.here .eofInObject [])
        | d :: s => if d = '}' then .ok s else skipMembers fuel (d :: s)
      else .error (.next .expectedValue (c :: s))

/-- Passes the items of an array from one of them on, and the closing bracket. -/
def skipItems (fuel : Nat) (s : List Char) : Except Fault (List Char) :=
  match fuel with
  | 0 => .error (.here .eofInList s)
  | fuel + 1 => do
    let s ← skipValue fuel s
    match skipSpace s with
    | [] => .error (.here .eofInList [])
    | c :: s =>
      if c = ']' then .ok s
      else if c = ',' then skipItems fuel s
      else .error (.next .expectedListCommaOrEnd (c :: s))

/-- Passes the members of an object from one of them on, and the closing brace. -/
def skipMembers (fuel : Nat) (s : List Char) : Except Fault (List Char) :=
  match fuel with
  | 0 => .error (.here .eofInObject s)
  | fuel + 1 => do
    let s ← skipKey s
    let s ← skipValue fuel s
    match skipSpace s with
    | [] => .error (.here .eofInObject [])
    | c :: s =>
      if c = '}' then .ok s
      else if c = ',' then skipMembers fuel s
      else .error (.next .expectedObjectCommaOrEnd (c :: s))
end

end NotebookTidy.Json
