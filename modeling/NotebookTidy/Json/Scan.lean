import NotebookTidy.Json.Fault
import NotebookTidy.Json.Quoted

/-! The pieces that JSON is read from: blanks, words, strings.

A scanner takes the text that is left and gives what it read together with the text
left after it, or a fault. -/
namespace NotebookTidy.Json

def isSpace (c : Char) : Bool :=
  c == ' ' || c == '\n' || c == '\t' || c == '\r'

def skipSpace (s : List Char) : List Char := s.dropWhile isSpace

/-- Reads the rest of a word such as `null` once its first letter is read. -/
def word : List Char → List Char → Except Fault (List Char)
  | [], s => .ok s
  | _ :: _, [] => .error (.here .eofInValue [])
  | w :: ws, c :: s => if c = w then word ws s else .error (.next .expectedIdent (c :: s))

/-! ### Strings -/

def hexNumber? : List Char → Option Nat
  | [a, b, c, d] => do
    let a ← Text.hexValue? a
    let b ← Text.hexValue? b
    let c ← Text.hexValue? c
    let d ← Text.hexValue? d
    pure (((a * 16 + b) * 16 + c) * 16 + d)
  | _ => none

/-- Reads four hexadecimal digits. Four bytes are taken before they are looked at, so
a text with fewer bytes left has come to its end. -/
def hexUnit (s : List Char) : Except Fault (Nat × List Char) :=
  match hexNumber? (s.take 4) with
  | some n => .ok (n, s.drop 4)
  | none =>
    if utf8Length s < 4 then .error (.here .eofInString [])
    else .error ⟨.invalidEscape, s, 4⟩

def isHighSurrogate (n : Nat) : Bool := 0xd800 ≤ n && n ≤ 0xdbff
def isLowSurrogate (n : Nat) : Bool := 0xdc00 ≤ n && n ≤ 0xdfff

/-- Reads the low half of a surrogate pair after its high half, and tells how many
characters that took. -/
def lowSurrogate (high : Nat) : List Char → Except Fault (Char × Nat)
  | [] => .error (.here .eofInString [])
  | '\\' :: [] => .error (.here .eofInString [])
  | '\\' :: 'u' :: s => do
    let (low, rest) ← hexUnit s
    if isLowSurrogate low then
      .ok (Char.ofNat ((high - 0xd800) * 1024 + (low - 0xdc00) + 0x10000), 6)
    else .error (.here .loneSurrogate rest)
  | '\\' :: s => .error (.next .unfinishedSurrogatePair s)
  | s => .error (.next .unfinishedSurrogatePair s)

/-- Reads the escape of a code point, or of a surrogate pair, after its `u`. -/
def unicodeEscape (s : List Char) : Except Fault (Char × Nat) := do
  let (n, rest) ← hexUnit s
  if isLowSurrogate n then .error (.here .loneSurrogate rest)
  else if isHighSurrogate n then
    let (c, used) ← lowSurrogate n rest
    .ok (c, 4 + used)
  else .ok (Char.ofNat n, 4)

/-- The character that a letter after a backslash stands for. -/
def letterEscape? (c : Char) : Option Char :=
  if c = '"' then some '"'
  else if c = '\\' then some '\\'
  else if c = '/' then some '/'
  else if c = 'b' then some '\x08'
  else if c = 'f' then some '\x0c'
  else if c = 'n' then some '\n'
  else if c = 'r' then some '\r'
  else if c = 't' then some '\t'
  else none

/-- Reads an escape after its backslash, and tells how many characters that took. -/
def escapeSequence : List Char → Except Fault (Char × Nat)
  | [] => .error (.here .eofInString [])
  | c :: s =>
    match letterEscape? c with
    | some d => .ok (d, 1)
    | none =>
      if c = 'u' then do
        let (d, used) ← unicodeEscape s
        .ok (d, 1 + used)
      else .error (.next .invalidEscape (c :: s))

/-- Reads the characters of a string up to its closing quote, first leaving out the
`skip` characters of an escape that is read already. The characters read come last
one first. -/
def stringBody (read : List Char) :
    (skip : Nat) → List Char → Except Fault (List Char × List Char)
  | _, [] => .error (.here .eofInString [])
  | skip + 1, _ :: s => stringBody read skip s
  | 0, c :: s =>
    if c = '"' then .ok (read, s)
    else if c = '\\' then
      match escapeSequence s with
      | .error f => .error f
      | .ok (d, used) => stringBody (d :: read) used s
    else if c.toNat < 0x20 then .error (.here .controlCharacter s)
    else stringBody (c :: read) 0 s

/-- Reads a string after its opening quote. -/
def stringRest (s : List Char) : Except Fault (String × List Char) := do
  let (cs, rest) ← stringBody [] 0 s
  .ok (String.ofList cs.reverse, rest)

end NotebookTidy.Json
