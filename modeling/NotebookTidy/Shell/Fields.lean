import NotebookTidy.Shell.Pattern
import NotebookTidy.Shell.State

/-! From a word to arguments.

Once its parameters have values, a word is cut into fields where such a value has a
separator. Blanks that separate count as one, and those at the ends for nothing; every other
separator ends a field, even an empty one. A field that is a pattern becomes the names of
the files that it matches, if there are any. -/
namespace NotebookTidy.Shell
open Files

/-- A part of a word whose parameters have values. In a list of arguments, there are NUL
characters between them. -/
inductive Stretch where
  | plain (s : String)
  | quoted (s : String)
  /-- A value that is split. -/
  | split (s : String)
  /-- Arguments that each stay as they are. -/
  | arguments (s : String)
deriving DecidableEq, Repr

namespace Stretch

def text : Stretch → String
  | .plain s | .quoted s | .split s | .arguments s => s

def glyphs : Stretch → List Glyph
  | .plain s | .split s => Glyph.ofPlain s.toList
  | .quoted s | .arguments s => Glyph.ofQuoted s.toList

end Stretch

def joinText (ss : List Stretch) : String := String.join (ss.map Stretch.text)

def patternOf (ss : List Stretch) : Pattern := .ofGlyphs (ss.flatMap Stretch.glyphs)

/-! ### Fields -/

/-- Fields in the making: those that are done, the last one first, and the one at hand in
reverse. It is there as soon as there is anything in it, be it empty quotes. -/
structure Fields where
  done : List (List Glyph)
  current : List Glyph
  present : Bool

namespace Fields

def finish (f : Fields) : Fields := ⟨f.current.reverse :: f.done, [], false⟩

def add (f : Fields) (gs : List Glyph) : Fields :=
  { f with current := gs.reverse ++ f.current, present := f.present || !gs.isEmpty }

def isSplitBlank (c : Char) : Bool := c == '\x00' || c == ' ' || c == '\t' || c == '\n'

/-- Takes separators after a field has ended. After a blank there may be one other
separator. -/
def afterEnd (separates : Char → Bool) (blank : Bool) : List Char → List Char
  | [] => []
  | c :: cs =>
    if !separates c then c :: cs
    else if isSplitBlank c then afterEnd separates blank cs
    else if blank then afterEnd separates false cs
    else c :: cs

def addSplit (separates : Char → Bool) : (fuel : Nat) → Fields → List Char → Fields
  | 0, f, _ => f
  | _ + 1, f, [] => f
  | fuel + 1, f, c :: cs =>
    if !separates c then addSplit separates fuel (f.add [⟨c, false⟩]) cs
    else if isSplitBlank c && !f.present then addSplit separates fuel f cs
    else addSplit separates fuel f.finish (afterEnd separates (isSplitBlank c) cs)

def addArguments (f : Fields) : List Char → Fields
  | [] => { f with present := true }
  | c :: cs =>
    if c = '\x00' then addArguments f.finish cs else addArguments (f.add [⟨c, true⟩]) cs

def addStretch (separators : List Char) (f : Fields) : Stretch → Fields
  | .plain s => f.add (Glyph.ofPlain s.toList)
  | .quoted s => { f.add (Glyph.ofQuoted s.toList) with present := true }
  | .split s =>
    addSplit (fun c => c == '\x00' || separators.contains c) (s.length + 1) f s.toList
  | .arguments s => f.addArguments s.toList

end Fields

/-- The fields of a word. -/
def fieldsOf (separators : List Char) (ss : List Stretch) : List (List Glyph) :=
  let f := ss.foldl (Fields.addStretch separators) ⟨[], [], false⟩
  (if f.present then f.finish else f).done.reverse

/-! ### Names of files -/

def sortTexts (ss : List String) : List String :=
  ss.mergeSort fun a b => comesBefore a.toList b.toList

/-- The names in a directory, with those of the directory itself and of the one above. -/
def namesIn (t : Tree) (directory : String) : List String :=
  match t.resolve (State.pathOf (if directory = "" then "." else directory)) with
  | .error _ => []
  | .ok l =>
    if t.lookup l ≠ some .directory then []
    else [".", ".."] ++ t.entries.filterMap fun e =>
      if e.1.dropLast = l ∧ e.1 ≠ [] then
        (e.1.getLast?).map fun name => String.ofList (octetsOf name)
      else none

/-- The pieces of a pattern between slashes. -/
def cutAtSlashes : List Glyph → List (List Glyph)
  | [] => [[]]
  | g :: gs =>
    match cutAtSlashes gs with
    | [] => [[g]]
    | p :: ps => if g.char = '/' then [] :: p :: ps else (g :: p) :: ps

/-- The paths that match the pieces of a pattern, behind the text so far. -/
def pathsMatching (t : Tree) (before : String) : List (List Glyph) → List String
  | [] => if t.pathExists (State.pathOf before) then [before] else []
  | piece :: pieces =>
    let slash := if pieces.isEmpty then "" else "/"
    let p := Pattern.ofGlyphs piece
    if p.isOpen then
      let dotted := (Glyph.unescaped piece).head?.any (·.char == '.')
      let names := (namesIn t before).filter fun name =>
        p.accepts name.toList && (dotted || name.toList.head? != some '.')
      names.flatMap fun name => pathsMatching t (before ++ name ++ slash) pieces
    else
      let name := String.ofList ((Glyph.unescaped piece).map Glyph.char)
      pathsMatching t (before ++ name ++ slash) pieces

def fieldText (gs : List Glyph) : String := String.ofList (gs.map Glyph.char)

/-- The arguments that a field stands for. -/
def argumentsOf (s : State) (gs : List Glyph) : List String :=
  if s.has 'f' || !(Pattern.ofGlyphs gs).isOpen then [fieldText gs]
  else match sortTexts (pathsMatching s.tree "" (cutAtSlashes gs)) with
    | [] => [fieldText gs]
    | paths => paths

end NotebookTidy.Shell
