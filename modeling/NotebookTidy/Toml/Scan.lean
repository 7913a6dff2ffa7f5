import NotebookTidy.Json.Quoted
import NotebookTidy.Toml.Value

/-! The pieces that TOML is read from: blanks, comments, keys, strings.

A scanner takes the text that is left and gives what it read together with the text
left after it. Which fault a text has does not matter, so there is one kind of failure
only. -/
namespace NotebookTidy.Toml

abbrev Scanner (α : Type) := List Char → Option (α × List Char)

/-- The text without its byte order mark, and with a line feed for every end of line. -/
def unfold : List Char → List Char
  | '\r' :: '\n' :: s => '\n' :: unfold s
  | c :: s => c :: unfold s
  | [] => []

def withoutMark : List Char → List Char
  | '\ufeff' :: s => s
  | s => s

def isBlank (c : Char) : Bool := c == ' ' || c == '\t'

def skipBlank (s : List Char) : List Char := s.dropWhile isBlank

/-- Takes a character that has to come next. -/
def char (c : Char) : List Char → Option (List Char)
  | d :: s => if d = c then some s else none
  | [] => none

/-- The end of a line, or of the text. -/
def lineEnd : List Char → Option (List Char)
  | [] => some []
  | '\n' :: s => some s
  | _ => none

/-- A character that may stand in a comment. -/
def isComment (c : Char) : Bool := c == '\t' || 0x20 ≤ c.toNat

/-- The end of a line, before which there may be blanks and a comment. -/
def restOfLine (s : List Char) : Option (List Char) :=
  match skipBlank s with
  | '#' :: s => lineEnd (s.dropWhile isComment)
  | s => lineEnd s

/-- Passes blanks, comments and ends of lines. -/
def skipLines : (fuel : Nat) → List Char → Option (List Char)
  | 0, s => some s
  | fuel + 1, s =>
    match skipBlank s with
    | '\n' :: s => skipLines fuel s
    | '#' :: s => do
      let s ← lineEnd (s.dropWhile isComment)
      skipLines fuel s
    | s => some s

/-! ### Bare words -/

/-- A character of a bare word: an ASCII letter or digit, a hyphen, an underscore. -/
def isBare (c : Char) : Bool :=
  c.isAlphanum || c == '-' || c == '_'

def bareWord (s : List Char) : Option (List Char × List Char) :=
  match s.takeWhile isBare with
  | [] => none
  | w => some (w, s.dropWhile isBare)

/-! ### Strings -/

/-- Reads hexadecimal digits. -/
def hexNumber : (count value : Nat) → Scanner Nat
  | 0, value, s => some (value, s)
  | count + 1, value, c :: s => do
    let d ← Text.hexValue? c
    hexNumber count (value * 16 + d) s
  | _ + 1, _, [] => none

/-- Reads a character given by its code point. -/
def codePoint (digits : Nat) (s : List Char) : Option (Char × List Char) := do
  let (n, s) ← hexNumber digits 0 s
  if n.isValidChar then some (Char.ofNat n, s) else none

/-- The character that a letter after a backslash stands for. -/
def letterEscape? (c : Char) : Option Char :=
  if c = '"' then some '"'
  else if c = '\\' then some '\\'
  else if c = 'b' then some '\x08'
  else if c = 'f' then some '\x0c'
  else if c = 'n' then some '\n'
  else if c = 'r' then some '\r'
  else if c = 't' then some '\t'
  else none

/-- Passes the end of a line after a backslash, and all blanks up to the next text. -/
def lineContinuation (s : List Char) : Option (List Char) := do
  let s ← match skipBlank s with
    | '\n' :: s => some s
    | [] => some []
    | _ => none
  some (s.dropWhile fun c => isBlank c || c == '\n')

/-- A character that may stand in a string as it is. -/
def isPlain (c : Char) : Bool :=
  c == '\t' || (0x20 ≤ c.toNat && c.toNat ≠ 0x7f)

/-- Reads what follows a backslash: a character, or nothing but the end of a line. -/
def escaped (multiline : Bool) : Scanner (List Char)
  | [] => none
  | c :: s =>
    match letterEscape? c with
    | some d => some ([d], s)
    | none =>
      if c = 'u' then (codePoint 4 s).map fun (d, s) => ([d], s)
      else if c = 'U' then (codePoint 8 s).map fun (d, s) => ([d], s)
      else if multiline && (isBlank c || c == '\n') then
        (lineContinuation (c :: s)).map fun s => ([], s)
      else none

/-- Reads a string of one line up to the quote that closes it. Escapes count only in
double quotes. -/
def lineString (quote : Char) : (fuel : Nat) → Scanner (List Char)
  | 0, _ => none
  | _ + 1, [] => none
  | fuel + 1, c :: s =>
    if c = quote then some ([], s)
    else if c = '\\' ∧ quote = '"' then do
      let (d, s) ← escaped false s
      let (ds, s) ← lineString quote fuel s
      some (d ++ ds, s)
    else if isPlain c then do
      let (cs, s) ← lineString quote fuel s
      some (c :: cs, s)
    else none

/-- The quotes at the end of a string of several lines. One or two of them stand for
themselves, three close the string, and up to two more may stand before those. -/
def closingQuotes (quote : Char) (s : List Char) : Nat :=
  min 5 (s.takeWhile (· == quote)).length

/-- Reads a string of several lines up to the three quotes that close it. -/
def blockString (quote : Char) : (fuel : Nat) → Scanner (List Char)
  | 0, _ => none
  | _ + 1, [] => none
  | fuel + 1, c :: s =>
    if c = quote then
      let n := closingQuotes quote (c :: s)
      if 3 ≤ n then some (List.replicate (n - 3) quote, (c :: s).drop n)
      else do
        let (cs, s) ← blockString quote fuel ((c :: s).drop n)
        some (List.replicate n quote ++ cs, s)
    else if c = '\\' ∧ quote = '"' then do
      let (d, s) ← escaped true s
      let (ds, s) ← blockString quote fuel s
      some (d ++ ds, s)
    else if c = '\n' || isPlain c then do
      let (cs, s) ← blockString quote fuel s
      some (c :: cs, s)
    else none

/-- A newline at the very beginning of a string of several lines does not count. -/
def dropFirstNewline : List Char → List Char
  | '\n' :: s => s
  | s => s

/-- A string, and whether it may go over several lines. -/
def quotedString (quote : Char) (s : List Char) : Option ((Bool × String) × List Char) :=
  match s with
  | c :: d :: rest =>
    if c = quote then
      if d = quote then
        (blockString quote (rest.length + 1) (dropFirstNewline rest)).map
          fun (cs, s) => ((true, String.ofList cs), s)
      else some ((false, ""), d :: rest)
    else single s
  | [c] => if c = quote then some ((false, ""), []) else single s
  | [] => none
where
  single (s : List Char) :=
    (lineString quote (s.length + 1) s).map fun (cs, s) => ((false, String.ofList cs), s)

/-! ### Keys -/

/-- Reads a key: a bare word, or a string of one line. -/
def key : Scanner String
  | [] => none
  | c :: s =>
    if c = '"' ∨ c = '\'' then
      match quotedString c s with
      | some ((false, k), s) => some (k, s)
      | _ => none
    else (bareWord (c :: s)).map fun (w, s) => (String.ofList w, s)

/-- Reads keys with points between them, and the blanks after them. -/
def dottedKey : (fuel : Nat) → Scanner (List String)
  | 0, _ => none
  | fuel + 1, s => do
    let (k, s) ← key s
    match skipBlank s with
    | '.' :: s => do
      let (ks, s) ← dottedKey fuel (skipBlank s)
      some (k :: ks, s)
    | s => some ([k], s)

end NotebookTidy.Toml
