import NotebookTidy.Text.Printable

/-! Text shown in quotes, for people.

A quote, a backslash and the usual control characters are shown with a backslash, and
so is NUL. Every other character that cannot be shown as it is appears as its code
point in hexadecimal digits. -/
namespace NotebookTidy.Text

/-- The code point of a character, as it is shown when the character cannot be. -/
def shownCodePoint (c : Char) : List Char :=
  '\\' :: 'u' :: '\x7b' :: Nat.toDigits 16 c.toNat ++ ['\x7d']

def shownChar (c : Char) : List Char :=
  if c = '"' then ['\\', '"']
  else if c = '\\' then ['\\', '\\']
  else if c = '\x00' then ['\\', '0']
  else if c = '\t' then ['\\', 't']
  else if c = '\n' then ['\\', 'n']
  else if c = '\r' then ['\\', 'r']
  else if isPrintable c then [c]
  else shownCodePoint c

def shown (s : String) : String :=
  String.ofList ('"' :: s.toList.flatMap shownChar ++ ['"'])

end NotebookTidy.Text
