import NotebookTidy.Json.Layout

/-! Writing JSON to bytes, piece by piece, in ASCII.

A writer holds the bytes written so far, how many brackets are open, and whether anything
stands in the bracket that was opened last. It is told where brackets open and close and
where their items and members begin and end, and lays them out as it goes along.

A string is written in pieces. The characters that every JSON text escapes cut it into
fragments. In a fragment nothing is escaped but what is not ASCII, and DEL; the bytes between
two such characters are copied as they are. -/
namespace NotebookTidy.Json

structure Writer where
  output : ByteArray
  level : Nat
  /-- Something stands in the bracket that was opened last. -/
  hasEntry : Bool

namespace Writer

/-- Nothing is written yet. -/
def start : Writer := ⟨ByteArray.empty, 0, false⟩

def writeBytes (w : Writer) (bytes : ByteArray) : Writer :=
  { w with output := w.output ++ bytes }

def write (w : Writer) (text : List Char) : Writer := w.writeBytes (String.ofList text).toUTF8

/-! ### Layout -/

def openBracket (w : Writer) (bracket : Char) : Writer :=
  { w with level := w.level + 1, hasEntry := false }.write [bracket]

/-- A bracket in which something stands is closed on a line of its own. -/
def closeBracket (w : Writer) (bracket : Char) : Writer :=
  let w := { w with level := w.level - 1 }
  let w := if w.hasEntry then (w.write ['\n']).write (List.replicate w.level ' ') else w
  w.write [bracket]

/-- An item or a member begins, on a line of its own. -/
def beginEntry (w : Writer) (first : Bool) : Writer :=
  (w.write (if first then ['\n'] else [',', '\n'])).write (List.replicate w.level ' ')

def endEntry (w : Writer) : Writer := { w with hasEntry := true }

def writeColon (w : Writer) : Writer := w.write [':', ' ']

/-! ### Strings -/

/-- The characters that every JSON text escapes. -/
def needsEscape (c : Char) : Bool := c == '"' || c == '\\' || c.toNat < 0x20

/-- A part of a string. -/
inductive Piece where
  /-- Characters that no JSON text has to escape. -/
  | fragment (text : List Char)
  | escaped (c : Char)
deriving DecidableEq

/-- A string in pieces, its fragments as long as can be. -/
def pieces : List Char → List Piece
  | [] => []
  | c :: cs =>
    if needsEscape c then .escaped c :: pieces cs
    else match pieces cs with
      | .fragment text :: ps => .fragment (c :: text) :: ps
      | ps => .fragment [c] :: ps

/-- Writes what is left of a fragment from the byte `index` on. What was passed since the byte
`start` is written only now, or once a character has to be escaped. -/
def writeFragmentFrom (bytes : ByteArray) (w : Writer) (start index : Nat) : List Char → Writer
  | [] => w.writeBytes (bytes.extract start bytes.size)
  | c :: cs =>
    let next := index + c.utf8Size
    if c.toNat < 0x7f then writeFragmentFrom bytes w start next cs
    else
      let w := w.writeBytes (bytes.extract start index)
      writeFragmentFrom bytes (w.write ((utf16Units c).flatMap unitEscape)) next next cs

def writeFragment (w : Writer) (text : List Char) : Writer :=
  writeFragmentFrom (String.ofList text).toUTF8 w 0 0 text

def writePiece (w : Writer) : Piece → Writer
  | .fragment text => w.writeFragment text
  | .escaped c => w.write (escape c)

def writeString (w : Writer) (s : String) : Writer :=
  ((pieces s.toList).foldl writePiece (w.write ['"'])).write ['"']

/-! ### Values -/

mutual
def writeValue (w : Writer) : Value → Writer
  | .null => w.write nullText
  | .bool b => w.write (boolText b)
  | .number n => w.write n.text
  | .string s => w.writeString s
  | .array items => (writeItems (w.openBracket '[') true items).closeBracket ']'
  | .object ms => (writeMembers (w.openBracket '{') true ms).closeBracket '}'

def writeItems (w : Writer) (first : Bool) : List Value → Writer
  | [] => w
  | v :: vs => writeItems (writeValue (w.beginEntry first) v).endEntry false vs

def writeMembers (w : Writer) (first : Bool) : List (String × Value) → Writer
  | [] => w
  | (k, v) :: ms =>
    let w := ((w.beginEntry first).writeString k).writeColon
    writeMembers (writeValue w v).endEntry false ms
end

end Writer
end NotebookTidy.Json
