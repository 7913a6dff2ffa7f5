import NotebookTidy.Toml.Reader

/-! Sections put together.

Sections whose headers go on with the same key belong together. They are an array if the
first of them is an item of it; each item takes the sections up to the next one. They
are a table otherwise, of which the entries may be written in one section only. -/
namespace NotebookTidy.Toml

/-- The keys that headers go on with, each once, in order. -/
def nextKeys (sections : List Section) : List String :=
  (sections.filterMap (·.header.head?)).eraseDups

/-- The sections whose header goes on with a key, with the rest of their headers. -/
def under (key : String) (sections : List Section) : List Section :=
  sections.filterMap fun s =>
    match s.header with
    | k :: header => if k = key then some { s with header } else none
    | [] => none

/-- Items of an array, each with the sections up to the next item. -/
def itemsOf (sections : List Section) : List (Section × List Section) :=
  (sections.foldr step ([], [])).1
where
  step (s : Section) (found : List (Section × List Section) × List Section) :=
    if s.header.isEmpty && s.isItem then ((s, found.2) :: found.1, [])
    else (found.1, s :: found.2)

mutual
/-- The entries that sections give below the headers they have in common. -/
def below (fuel : Nat) (sections : List Section) : Option Entries :=
  match fuel with
  | 0 => none
  | fuel + 1 => (nextKeys sections).mapM fun key => do
    let v ← together fuel (under key sections)
    some (key, v)

/-- The value of sections whose headers have the same keys so far. -/
def together (fuel : Nat) (sections : List Section) : Option Value :=
  match fuel with
  | 0 => none
  | fuel + 1 =>
    match sections with
    | [] => none
    | first :: _ =>
      if first.header = [] ∧ first.isItem then do
        let items ← (itemsOf sections).mapM fun (item, rest) => do
          if rest.any (·.header.isEmpty) then none
          else
            let entries ← below fuel rest
            some (.table false (item.entries ++ entries))
        some (.array items)
      else do
        let entries ← table fuel sections
        some (.table false entries)

/-- The entries of a table: those of the section that writes it, and those below. -/
def table (fuel : Nat) (sections : List Section) : Option Entries :=
  match fuel with
  | 0 => none
  | fuel + 1 =>
    match sections.filter (·.header.isEmpty) with
    | [] => below fuel sections
    | [s] =>
      if s.isItem then none
      else do
        let entries ← below fuel sections
        some (s.entries ++ entries)
    | _ => none
end

/-- Calls enough for any sections: three for each key of the longest header. -/
def depthFor (sections : List Section) : Nat :=
  3 * (sections.map (·.header.length)).foldr max 0 + 3

/-- The entries of a TOML text. -/
def read (text : String) : Option Entries := do
  let sections ← sections text
  table (depthFor sections) sections

end NotebookTidy.Toml
