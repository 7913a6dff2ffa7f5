import NotebookTidy.Toml.NumberScan

/-! Reading a TOML text into its sections. -/
namespace NotebookTidy.Toml

/-- Reads a key and an equals sign, with blanks around both. -/
def entryKey (s : List Char) : Option (List String × List Char) := do
  let (ks, s) ← dottedKey (s.length + 1) s
  let s ← char '=' s
  some (ks, skipBlank s)

mutual
/-- Reads a value. `fuel` bounds the calls. -/
def value (fuel : Nat) (s : List Char) : Option (Value × List Char) :=
  match fuel with
  | 0 => none
  | fuel + 1 =>
    match s with
    | [] => none
    | c :: s =>
      if c = '"' ∨ c = '\'' then
        (quotedString c s).map fun ((_, t), s) => (.string t, s)
      else if c = '+' then do
        let (w, s) ← bareWord s
        number w s
      else if c = '[' then do
        let (items, s) ← arrayItems fuel s
        some (.array items, s)
      else if c = '{' then
        match skipBlank s with
        | '}' :: s => some (.table false [], s)
        | s => do
          let (entries, s) ← inlineEntries fuel [] s
          some (.table false entries, s)
      else do
        let (w, s) ← bareWord (c :: s)
        bareValue w s

/-- Reads the items of an array and its closing bracket. They may be on several lines,
with a comma after the last one. -/
def arrayItems (fuel : Nat) (s : List Char) : Option (List Value × List Char) :=
  match fuel with
  | 0 => none
  | fuel + 1 => do
    let s ← skipLines (s.length + 1) s
    match s with
    | ']' :: s => some ([], s)
    | s => do
      let (v, s) ← value fuel s
      let s ← skipLines (s.length + 1) s
      match s with
      | ',' :: s => do
        let (vs, s) ← arrayItems fuel s
        some (v :: vs, s)
      | ']' :: s => some ([v], s)
      | _ => none

/-- Reads the entries of an inline table and its closing brace. -/
def inlineEntries (fuel : Nat) (entries : Entries) (s : List Char) :
    Option (Entries × List Char) :=
  match fuel with
  | 0 => none
  | fuel + 1 => do
    let (ks, s) ← entryKey s
    let (v, s) ← value fuel s
    let entries ← addEntry entries ks v
    match skipBlank s with
    | '}' :: s => some (entries, s)
    | ',' :: s => inlineEntries fuel entries (skipBlank s)
    | _ => none
end

/-- Reads a header after its first bracket, and the rest of its line. -/
def header (s : List Char) : Option (Section × List Char) := do
  let (isItem, s) := match s with
    | '[' :: s => (true, s)
    | s => (false, s)
  let (ks, s) ← dottedKey (s.length + 1) (skipBlank s)
  let s ← char ']' s
  let s ← if isItem then char ']' s else some s
  let s ← restOfLine s
  some (⟨ks, isItem, []⟩, s)

/-- Reads the lines from somewhere in a section on. -/
def sectionsFrom (fuel : Nat) (current : Section) (s : List Char) : Option (List Section) :=
  match fuel with
  | 0 => none
  | fuel + 1 => do
    let s ← skipLines (s.length + 1) s
    match s with
    | [] => some [current]
    | '[' :: s => do
      let (next, s) ← header s
      let rest ← sectionsFrom fuel next s
      some (current :: rest)
    | s => do
      let (ks, s) ← entryKey s
      let (v, s) ← value (2 * s.length + 2) s
      let entries ← addEntry current.entries ks v
      let s ← restOfLine s
      sectionsFrom fuel { current with entries } s

/-- The sections of a text. The first one has no header. -/
def sections (text : String) : Option (List Section) :=
  let s := unfold (withoutMark text.toList)
  sectionsFrom (s.length + 1) ⟨[], false, []⟩ s

end NotebookTidy.Toml
