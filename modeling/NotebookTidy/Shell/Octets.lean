import NotebookTidy.Text.Utf8

/-! Bytes as the characters of a script.

A shell and the programs it starts read bytes, and give a meaning to those of ASCII only.
Here every byte is the character of its number, so that bytes of any other encoding are
carried along one by one and come out as they went in. -/
namespace NotebookTidy.Shell

def octet (b : UInt8) : Char := Char.ofNat b.toNat

def octetsOf (bytes : Bytes) : List Char := bytes.map octet

/-- The bytes that characters stand for. -/
def bytesOf (cs : List Char) : Bytes := cs.map fun c => UInt8.ofNat c.toNat

/-- A text as the characters of its bytes. -/
def octetText (s : String) : String := String.ofList (octetsOf (Text.encode s))

/-- The bytes of a text that is held as characters of bytes. -/
def textBytes (s : String) : Bytes := bytesOf s.toList

/-- The order of texts by their bytes. -/
def comesBefore : List Char → List Char → Bool
  | [], _ => true
  | _ :: _, [] => false
  | a :: as, b :: bs => a < b || (a == b && comesBefore as bs)

/-- Octal digits at the start of a text, at most so many: their value, and what follows. -/
def octal? (limit : Nat) (s : List Char) : Option (Nat × List Char) :=
  let ds := (s.take limit).takeWhile fun c => '0' ≤ c && c ≤ '7'
  if ds.isEmpty then none
  else some (ds.foldl (fun n c => n * 8 + (c.toNat - '0'.toNat)) 0, s.drop ds.length)

/-- The byte of a number, as a character. -/
def octetOf (n : Nat) : Char := Char.ofNat (n % 256)

/-- The character that a letter after a backslash stands for. -/
def control? (c : Char) : Option Char :=
  if c = 'a' then some '\x07'
  else if c = 'b' then some '\x08'
  else if c = 'e' then some '\x1b'
  else if c = 'f' then some '\x0c'
  else if c = 'n' then some '\n'
  else if c = 'r' then some '\r'
  else if c = 't' then some '\t'
  else if c = 'v' then some '\x0b'
  else if c = '\\' then some '\\'
  else none

/-- A letter, or an underscore: what a name begins with. -/
def startsName (c : Char) : Bool := c.isAlpha || c == '_'

def continuesName (c : Char) : Bool := c.isAlphanum || c == '_'

def isName (s : String) : Bool :=
  match s.toList with
  | c :: cs => startsName c && cs.all continuesName
  | [] => false

end NotebookTidy.Shell
