import NotebookTidy.Shell.Variables

/-! Reading input into variables. -/
namespace NotebookTidy.Shell

/-- A character of a line of input. -/
inductive InputChar where
  | plain (c : Char)
  /-- It comes after a backslash, and so separates nothing. -/
  | escaped (c : Char)
  /-- A backslash has joined two lines here. -/
  | joint
deriving DecidableEq, Repr

/-- A line of input: its characters, how many bytes were read, and whether the line was
complete. NUL bytes count for nothing. -/
def readLine (raw escaped : Bool) : Bytes → List InputChar × Nat × Bool
  | [] => ([], 0, false)
  | b :: bs =>
    let further (escaped : Bool) (cs : List InputChar) :=
      let r := readLine raw escaped bs
      (cs ++ r.1, r.2.1 + 1, r.2.2)
    if b = 0 then further escaped []
    else if escaped then further false [if b = 10 then .joint else .escaped (octet b)]
    else if b = 10 then ([], 1, true)
    else if b = 92 ∧ !raw then further true []
    else further false [.plain (octet b)]

/-- Where the division of a line into fields stands. -/
structure Division where
  /-- How many fields are still to end, the last of which takes all that is left. -/
  left : Nat
  /-- The fields that have ended, the last one first. -/
  done : List String
  /-- The characters of the field at hand, the last one first. -/
  field : List Char
  /-- After how many characters the last field can be cut. -/
  cut : Option Nat
  /-- A blank has come before that separates. -/
  blank : Bool

/-- Reads a character that was not escaped. The last field is cut before blanks at its end, and
before a separator there if that is the only one. -/
def Division.plain (separators : List Char) (d : Division) (c : Char) : Division :=
  let separates := separators.contains c
  let blank := separates && Fields.isSplitBlank c
  let longer := c :: d.field
  if d.left = 0 then
    if blank then { d with field := longer, cut := some (d.cut.getD d.field.length) }
    else { d with field := longer, cut := if separates && d.blank then d.cut else none
                  blank := false }
  else if d.blank then
    if separates then { d with blank := blank } else { d with field := longer, blank := false }
  else if !separates then { d with field := longer }
  else if blank && d.field.isEmpty then d
  else if d.left = 1 then ⟨0, d.done, longer, some d.field.length, blank⟩
  else ⟨d.left - 1, String.ofList d.field.reverse :: d.done, [], none, blank⟩

def Division.step (separators : List Char) (d : Division) : InputChar → Division
  | .plain c => d.plain separators c
  | .escaped c => { d with field := c :: d.field, blank := false }
  | .joint => { d with blank := false }

/-- The values of so many variables from a line. -/
def lineFields (separators : List Char) (count : Nat) (cs : List InputChar) : List String :=
  let d := cs.foldl (Division.step separators) ⟨count, [], [], none, false⟩
  let last := d.field.reverse.take (d.cut.getD d.field.length)
  let fields := d.done.reverse ++ [String.ofList last]
  fields ++ List.replicate (count - fields.length) ""

def readVariables (args : List String) : Act Nat := do
  let (given, names) ← Act.optionsWithValues ['r'] ['p'] args
  if names.isEmpty then Act.fail "arg count"
  let s ← get
  let (line, used, complete) := match s.unread 0 with
    | .ok bytes => readLine (given.any (·.1 == 'r')) false bytes
    | .error _ => ([], 0, false)
  set (s.advance 0 used)
  let separators := s.separators
  let values := lineFields separators names.length line
  for (name, value) in names.zip values do
    Act.assign (← Act.variableName name) value
  return if complete then 0 else 1

end NotebookTidy.Shell
