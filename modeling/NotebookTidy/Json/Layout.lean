import NotebookTidy.Json.Numeral
import NotebookTidy.Json.Quoted

/-! Writing JSON.

`compact` has no blanks at all. `indented` puts every item and every member on a line
of its own, one space further in than what it belongs to, and keeps empty arrays and
objects on one line. Both take the rule by which the characters of strings and keys
are escaped. -/
namespace NotebookTidy.Json

def nullText : List Char := ['n', 'u', 'l', 'l']

/-- Pieces with a separator between them. -/
def separated (sep : List Char) : List (List Char) → List Char
  | [] => []
  | [p] => p
  | p :: ps => p ++ sep ++ separated sep ps

/-! ### Without blanks -/

mutual
def compact (esc : Char → List Char) : Value → List Char
  | .null => nullText
  | .bool b => boolText b
  | .number n => n.text
  | .string s => quoted esc s
  | .array items => '[' :: separated [','] (compactItems esc items) ++ [']']
  | .object ms => '{' :: separated [','] (compactMembers esc ms) ++ ['}']

def compactItems (esc : Char → List Char) : List Value → List (List Char)
  | [] => []
  | v :: vs => compact esc v :: compactItems esc vs

def compactMembers (esc : Char → List Char) : List (String × Value) → List (List Char)
  | [] => []
  | (k, v) :: ms => (quoted esc k ++ ':' :: compact esc v) :: compactMembers esc ms
end

/-! ### On lines -/

/-- A newline and the indentation of a level. -/
def lineBreak (level : Nat) : List Char :=
  '\n' :: List.replicate level ' '

mutual
/-- The text of a value at a level: the text after a line break inside it starts one
level further in. -/
def indented (esc : Char → List Char) (level : Nat) : Value → List Char
  | .null => nullText
  | .bool b => boolText b
  | .number n => n.text
  | .string s => quoted esc s
  | .array [] => ['[', ']']
  | .array (v :: vs) =>
    '[' :: separated [','] (indentedItems esc (level + 1) (v :: vs)) ++ lineBreak level ++ [']']
  | .object [] => ['{', '}']
  | .object (m :: ms) =>
    '{' :: separated [','] (indentedMembers esc (level + 1) (m :: ms)) ++ lineBreak level ++ ['}']

def indentedItems (esc : Char → List Char) (level : Nat) : List Value → List (List Char)
  | [] => []
  | v :: vs => (lineBreak level ++ indented esc level v) :: indentedItems esc level vs

def indentedMembers (esc : Char → List Char) (level : Nat) :
    List (String × Value) → List (List Char)
  | [] => []
  | (k, v) :: ms =>
    (lineBreak level ++ quoted esc k ++ ':' :: ' ' :: indented esc level v)
      :: indentedMembers esc level ms
end

end NotebookTidy.Json
