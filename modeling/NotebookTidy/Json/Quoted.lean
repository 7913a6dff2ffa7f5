/-! JSON strings in quotes.

A quote, a backslash and the control characters below U+0020 are escaped; the usual
ones by a letter, the others by four hexadecimal digits. In plain text every other
character stands for itself. In ASCII text each character from U+007F on is written
as its UTF-16 units, so that one beyond U+FFFF takes two escapes. -/
namespace NotebookTidy

/-! ### Hexadecimal digits -/

namespace Text

/-- The value of a digit, in letters of either case. -/
def hexValue? (c : Char) : Option Nat :=
  if '0' ≤ c ∧ c ≤ '9' then some (c.toNat - '0'.toNat)
  else if 'a' ≤ c ∧ c ≤ 'f' then some (c.toNat - 'a'.toNat + 10)
  else if 'A' ≤ c ∧ c ≤ 'F' then some (c.toNat - 'A'.toNat + 10)
  else none

/-- The digit of a value below sixteen, in small letters. -/
def hexDigit (n : Nat) : Char :=
  (['0', '1', '2', '3', '4', '5', '6', '7', '8', '9', 'a', 'b', 'c', 'd', 'e', 'f'][n]?).getD '0'

end Text

/-! ### Escapes -/

namespace Json

/-- An escape of four hexadecimal digits. -/
def unitEscape (n : Nat) : List Char :=
  '\\' :: 'u' :: [n / 4096, n / 256, n / 16, n].map fun q => Text.hexDigit (q % 16)

/-- The UTF-16 units of a character. -/
def utf16Units (c : Char) : List Nat :=
  if c.toNat < 0x10000 then [c.toNat]
  else [0xd800 + (c.toNat - 0x10000) / 1024, 0xdc00 + (c.toNat - 0x10000) % 1024]

/-- The escapes that every JSON text needs. -/
def escape (c : Char) : List Char :=
  if c = '"' then ['\\', '"']
  else if c = '\\' then ['\\', '\\']
  else if c = '\x08' then ['\\', 'b']
  else if c = '\x0c' then ['\\', 'f']
  else if c = '\n' then ['\\', 'n']
  else if c = '\r' then ['\\', 'r']
  else if c = '\t' then ['\\', 't']
  else if c.toNat < 0x20 then unitEscape c.toNat
  else [c]

/-- The escapes of an ASCII text: what every JSON text escapes, and beyond DEL the
UTF-16 units. -/
def escapeAscii (c : Char) : List Char :=
  if c.toNat < 0x7f then escape c else (utf16Units c).flatMap unitEscape

def quoted (esc : Char → List Char) (s : String) : List Char :=
  '"' :: s.toList.flatMap esc ++ ['"']

end Json
end NotebookTidy
