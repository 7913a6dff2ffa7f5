import NotebookTidy.Log.Line
import NotebookTidy.Text.Alphanumeric
import NotebookTidy.Text.Blank
import NotebookTidy.Text.Lines

/-! Which events are logged.

A filter is a list of directives, with commas between them. A directive lets the entries
of a topic through, up to a level; it is about every topic that begins with its own. It
may ask for a field, and is then about the entries that have it. Of the directives that
are about an entry the most specific one counts, the one with the longest topic, and the
last of several that are alike. An entry that no directive is about is not logged. -/
namespace NotebookTidy.Log

/-- The most that is logged; `none` is nothing at all. -/
abbrev Threshold := Option Level

/-! ### Levels in words -/

/-- A number, with or without a plus sign. -/
def plainNumber? (word : List Char) : Option Nat :=
  let digits := match word with
    | '+' :: digits => digits
    | digits => digits
  if digits.isEmpty || !digits.all Char.isDigit then none
  else some (digits.foldl (fun n c => n * 10 + (c.toNat - '0'.toNat)) 0)

def numberThreshold? : Nat → Option Threshold
  | 0 => some none
  | 1 => some (some .error)
  | 2 => some (some .warn)
  | 3 => some (some .info)
  | 4 => some (some .debug)
  | 5 => some (some .trace)
  | _ => none

/-- The threshold that a word stands for, in letters of any case or as a number. -/
def threshold? (word : String) : Option Threshold :=
  match plainNumber? word.toList with
  | some n => numberThreshold? n
  | none =>
    match String.ofList (word.toList.map Char.toLower) with
    | "off" => some none
    | "error" => some (some .error)
    | "warn" => some (some .warn)
    | "info" => some (some .info)
    | "debug" => some (some .debug)
    | "trace" => some (some .trace)
    | _ => none

/-! ### Directives -/

structure Directive where
  /-- The beginning of a topic; `none` is every topic. -/
  topic : Option String
  /-- A field that an entry has to have. -/
  field : Option String
  threshold : Threshold

/-- What a directive says about spans: the name of one, and a field with or without a
value. There are no spans in this log, so a directive that names one, or a field's value,
is about nothing. -/
structure SpanPart where
  name : Option String
  field : Option String

def SpanPart.isAny : SpanPart → Bool
  | ⟨none, none⟩ => true
  | ⟨none, some field⟩ => !field.contains '='
  | _ => false

/-- A directive that was read; `none` if it is about nothing. -/
def directiveOf (topic : Option String) (span : SpanPart) (threshold : Threshold) :
    Option Directive :=
  if span.isAny then some ⟨topic, span.field, threshold⟩ else none

/-- A part of a text, from one place among its bytes up to another. -/
def cut (text : Bytes) (start stop : Nat) : String :=
  Text.decodeLossy ((text.take stop).drop start)

/-- The level after an equals sign. Without one everything is meant. -/
def levelAt? (text : Bytes) (start : Nat) : Option Threshold :=
  if text.length ≤ start then some (some .trace) else threshold? (cut text start text.length)

def isBracket (b : UInt8) : Bool := b == 91
def isEquals (b : UInt8) : Bool := b == 61

/-- What follows the brackets of a directive: nothing, or a level. `shape` is what is left
of the directive at a place. -/
def afterBrackets? (text : Bytes) (topic : Option String) (span : SpanPart) (place : Nat) :
    (shape : Bytes) → Option (Option Directive)
  | [] => some (directiveOf topic span (some .trace))
  | b :: _ =>
    if isEquals b then (levelAt? text (place + 1)).map (directiveOf topic span) else none

/-- What stands in the brackets of a directive. -/
def brackets? (text : Bytes) (topic : Option String) (place : Nat) (shape : Bytes) :
    Option (Option Directive) :=
  let name := shape.takeWhile fun b => b != 93 && b != 123
  let nameEnd := place + name.length
  match shape.drop name.length with
  | 123 :: rest =>
    let field := rest.takeWhile (· != 125)
    let fieldEnd := nameEnd + 1 + field.length
    match rest.drop field.length with
    | 125 :: 93 :: rest =>
      if field.isEmpty then none
      else
        let spanName := if name.isEmpty then none else some (cut text place nameEnd)
        afterBrackets? text topic ⟨spanName, some (cut text (nameEnd + 1) fieldEnd)⟩
          (fieldEnd + 2) rest
    | _ => none
  | 93 :: rest => afterBrackets? text topic ⟨some (cut text place nameEnd), none⟩ (nameEnd + 1) rest
  | _ => none

/-- Reads a directive: a level, or a topic, brackets and a level of which any may be
missing. `none` is for what is no directive, and `some none` for one that is about
nothing. Its parts are told apart in the text without the blanks around it, but taken from
the same places of the text as it stands. -/
def directive? (written : String) : Option (Option Directive) :=
  let text := Text.encode written
  match (Text.trimBlank written).toList with
  | [] => none
  | c :: cs =>
    let shape := Text.encode (String.ofList (c :: cs))
    if c = '[' then brackets? text none 1 (shape.drop 1)
    else if !Text.isAlphanumeric c && c != '-' && c != ':' && c != '_' then none
    else
      let topic := shape.takeWhile fun b => !isEquals b && !isBracket b
      let place := topic.length
      match shape.drop place with
      | [] =>
        match threshold? written with
        | some t => some (some ⟨none, none, t⟩)
        | none => some (some ⟨some written, none, some .trace⟩)
      | b :: rest =>
        let topic := some (cut text 0 place)
        if isBracket b then brackets? text topic (place + 1) rest
        else (levelAt? text (place + 1)).map (directiveOf topic ⟨none, none⟩)

/-! ### Filters -/

abbrev Filter := List Directive

/-- The directives of a text; `none` if one of them is none. -/
def filter? (text : String) : Option Filter := do
  let parts := (Text.splitAt ',' text.toList).filter (! ·.isEmpty)
  let directives ← parts.mapM fun part => directive? (String.ofList part)
  some (directives.filterMap id)

/-- Whether a directive is about an entry. The message is a field, too. -/
def Directive.isAbout (d : Directive) (e : Entry) : Bool :=
  d.topic.all (fun topic => topic.toList.isPrefixOf e.topic.toList)
    && d.field.all fun field => field == "message" || e.fields.any (·.1 == field)

/-- Whether a directive is at least as specific as another one that is about the same
entry. -/
def Directive.atLeast (d other : Directive) : Bool :=
  let length (d : Directive) := (d.topic.map fun topic => topic.length + 1).getD 0
  if length d = length other then
    match other.field, d.field with
    | none, _ => true
    | some _, none => false
    | some a, some b => a ≤ b
  else length other < length d

def prefer (best : Option Directive) (d : Directive) : Option Directive :=
  match best with
  | none => some d
  | some b => if d.atLeast b then some d else best

def Filter.thresholdFor (ds : Filter) (e : Entry) : Threshold :=
  (((ds.filter (·.isAbout e)).foldl prefer none).map (·.threshold)).getD none

def Filter.passes (ds : Filter) (e : Entry) : Bool :=
  match ds.thresholdFor e with
  | none => false
  | some most => e.level.rank ≤ most.rank

/-- The level by how often more was asked for. -/
def levelFor (verbosity : Nat) : Level :=
  match verbosity with
  | 0 => .warn
  | 1 => .info
  | _ => .debug

/-- The filter of a run: the one that was given, if there is one that can be read. -/
def chooseFilter (given : Option String) (verbosity : Nat) : Filter :=
  (given.bind filter?).getD [⟨none, none, some (levelFor verbosity)⟩]

/-- The lines that are logged of events. -/
def render (ds : Filter) (events : List Event) : List String :=
  ((events.filterMap entry?).filter ds.passes).flatMap fun e => Text.printedLines e.text

end NotebookTidy.Log
