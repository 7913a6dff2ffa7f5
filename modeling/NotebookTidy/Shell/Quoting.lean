import NotebookTidy.Shell.Octets

/-! Arguments as programs show them in their messages. -/
namespace NotebookTidy.Shell

def isPrintable (c : Char) : Bool := ' ' ≤ c && c ≤ '~'

/-- The three octal digits of a character. -/
def octalDigits (c : Char) : List Char :=
  let n := c.toNat
  [Char.ofNat (48 + n / 64), Char.ofNat (48 + n / 8 % 8), Char.ofNat (48 + n % 8)]

/-- The letter of a control character. -/
def controlLetter? (c : Char) : Option Char :=
  if c = '\x07' then some 'a'
  else if c = '\x08' then some 'b'
  else if c = '\x0c' then some 'f'
  else if c = '\n' then some 'n'
  else if c = '\r' then some 'r'
  else if c = '\t' then some 't'
  else if c = '\x0b' then some 'v'
  else none

/-- A control character, or one of no meaning, after a backslash. -/
def escapedOctet? (c : Char) : Option (List Char) :=
  match controlLetter? c with
  | some l => some [l]
  | none => if isPrintable c then none else some (octalDigits c)

/-- A text with its control characters made visible. -/
def visibleText (s : List Char) : List Char :=
  s.flatMap fun c =>
    if c = '\\' then ['\\', '\\']
    else match escapedOctet? c with
      | some e => '\\' :: e
      | none => [c]

/-- A text in quotes. -/
def inQuotes (s : String) : String :=
  let inside := s.toList.flatMap fun c =>
    if c = '\\' ∨ c = '\'' then ['\\', c]
    else match escapedOctet? c with
      | some e => '\\' :: e
      | none => [c]
  "'" ++ String.ofList inside ++ "'"

/-! ### Names of files

A name is shown so that a shell would read it back as it is. -/

/-- Whether a character has a meaning in a shell, being the first one or not. -/
def needsQuotes (first alone : Bool) (c : Char) : Bool :=
  if c = '\x7b' ∨ c = '\x7d' then alone
  else if c = '#' ∨ c = '~' then first
  else ("\\\n\r\t !\"$&()*;<=>[^\x60|':".toList).contains c

/-- A character that stands in double quotes as it does in single ones. -/
def alikeInQuotes (c : Char) : Bool :=
  c == '\'' || c == ' ' || c.isAlphanum
    || ("#~%+,-./:]_@\x7b\x7d".toList).contains c || (c == '?')

/-- The pieces of a name in single quotes; what is escaped stands in quotes of its own. -/
def shellPieces : (escaping : Bool) → List Char → List Char
  | true, [] => []
  | false, [] => []
  | escaping, c :: cs =>
    match escapedOctet? c with
    | some e => (if escaping then ['\\'] else "'$'\\".toList) ++ e ++ shellPieces true cs
    | none =>
      (if escaping then ['\'', '\''] else [])
        ++ (if c = '\'' then "'\\''".toList else [c]) ++ shellPieces false cs

/-- A name as it is, or in quotes if it needs them. -/
def shownName (name : String) : String :=
  let cs := name.toList
  let alone := cs.length == 1
  let plain := !cs.isEmpty && !(match cs with
    | [] => false
    | c :: rest =>
      needsQuotes true alone c || (rest.any (needsQuotes false alone))
        || cs.any fun c => (escapedOctet? c).isSome)
  if plain then name
  else if cs.contains '\'' && cs.all alikeInQuotes then "\"" ++ name ++ "\""
  else "'" ++ String.ofList (shellPieces false cs) ++ "'"

end NotebookTidy.Shell
