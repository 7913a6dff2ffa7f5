import NotebookTidy.Json.Value
import NotebookTidy.Text.Utf8

/-! What can be wrong with a JSON text, and where.

A reader that meets a fault keeps the cause and the text it has not read. The place
is worked out afterwards, from how many bytes have been read: lines count from one,
and the column is the number of bytes since the last newline. A fault that concerns
the next character, which is not read, counts its first byte too. -/
namespace NotebookTidy.Json

/-- What stands where something else was wanted. -/
inductive Found where
  | null
  | bool (b : Bool)
  | number (n : Number)
  | string (s : String)
  | sequence
  | map
deriving DecidableEq, Repr

inductive Cause where
  | eofInList
  | eofInObject
  | eofInString
  | eofInValue
  | expectedColon
  | expectedListCommaOrEnd
  | expectedObjectCommaOrEnd
  | expectedIdent
  | expectedValue
  | invalidEscape
  | invalidNumber
  | numberOutOfRange
  | controlCharacter
  | keyNotString
  | loneSurrogate
  | trailingComma
  | trailingCharacters
  | unfinishedSurrogatePair
  | recursionLimit
  | invalidType (found : Found) (wanted : String)
  | invalidLength (length : Nat) (wanted : String)
  | missingField (name : String)
  | duplicateField (name : String)
deriving DecidableEq, Repr

/-! ### Places -/

structure Position where
  line : Nat
  column : Nat
deriving DecidableEq, Repr

namespace Position

def start : Position := ⟨1, 0⟩

def advance (p : Position) (b : UInt8) : Position :=
  if b = 10 then ⟨p.line + 1, 0⟩ else { p with column := p.column + 1 }

/-- The place after some bytes. -/
def after (bytes : Bytes) : Position :=
  bytes.foldl advance start

end Position

def utf8Bytes (cs : List Char) : Bytes :=
  cs.flatMap String.utf8EncodeChar

def utf8Length (cs : List Char) : Nat :=
  (utf8Bytes cs).length

/-- A cause, the text not read when it was noticed, and how many bytes of that text
the place counts as read. -/
structure Fault where
  cause : Cause
  rest : List Char
  ahead : Nat
deriving DecidableEq, Repr

namespace Fault

/-- A fault of what has been read. -/
def here (cause : Cause) (rest : List Char) : Fault := ⟨cause, rest, 0⟩

/-- A fault of what comes next. -/
def next (cause : Cause) (rest : List Char) : Fault := ⟨cause, rest, 1⟩

/-- The place of a fault in the whole text. -/
def position (f : Fault) (text : List Char) : Position :=
  let read := utf8Length text - utf8Length f.rest
  .after ((utf8Bytes text).take (read + f.ahead))

end Fault

/-- A fault and its place. -/
structure Error where
  cause : Cause
  position : Position
deriving DecidableEq, Repr

def Fault.toError (f : Fault) (text : List Char) : Error :=
  ⟨f.cause, f.position text⟩

end NotebookTidy.Json
