/-! TOML values.

Tables keep their entries in the order they were written in, entries with one key
included. A table that came about by dotted keys can be added to by more of them; one
that was written out cannot. -/
namespace NotebookTidy.Toml

inductive Value where
  | string (s : String)
  | bool (b : Bool)
  | integer (n : Int)
  | float
  /-- A date, a time, or both. -/
  | moment
  | array (items : List Value)
  | table (dotted : Bool) (entries : List (String × Value))
deriving Inhabited

abbrev Entries := List (String × Value)

/-- Enters a value under a dotted key. Every key but the last names a dotted table, which
is made if it is not there. -/
def addEntry (entries : Entries) : List String → Value → Option Entries
  | [], _ => none
  | [key], v => some (entries ++ [(key, v)])
  | key :: keys, v =>
    match entries.find? (·.1 == key) with
    | some (_, .table true inner) => do
      let inner ← addEntry inner keys v
      let (before, rest) := entries.span (·.1 != key)
      some (before ++ (key, .table true inner) :: rest.tail)
    | some _ => none
    | none => do
      let inner ← addEntry [] keys v
      some (entries ++ [(key, .table true inner)])

/-- A header with the entries under it. The part before the first header has the empty
one. -/
structure Section where
  header : List String
  /-- The header has double brackets: it begins a new item of an array. -/
  isItem : Bool
  entries : Entries

end NotebookTidy.Toml
