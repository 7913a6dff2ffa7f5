import NotebookTidy.Shell.Octets

/-! Patterns of file names and of cases.

A question mark stands for any character, an asterisk for any text, and brackets for one of
the characters in them, or with an exclamation mark for any other one. A character may also
be there for itself, because it was in quotes or comes after a backslash. -/
namespace NotebookTidy.Shell

/-- A character of a pattern, and whether it stands for itself. -/
structure Glyph where
  char : Char
  literal : Bool
deriving DecidableEq, Repr

namespace Glyph

def ofPlain (s : List Char) : List Glyph := s.map (⟨·, false⟩)
def ofQuoted (s : List Char) : List Glyph := s.map (⟨·, true⟩)

/-- Whether this is a character with a meaning in patterns. -/
def means (g : Glyph) (c : Char) : Bool := !g.literal && g.char == c

/-- Takes backslashes away, and the meaning of what comes after them. -/
def unescaped : List Glyph → List Glyph
  | [] => []
  | [g] => [g]
  | g :: h :: gs =>
    if g.means '\\' then ⟨h.char, true⟩ :: unescaped gs else g :: unescaped (h :: gs)

end Glyph

/-- The characters of a class that has a name. -/
def inClass (name : String) (c : Char) : Option Bool :=
  let printing := ' ' ≤ c && c ≤ '~'
  match name with
  | "alnum" => some c.isAlphanum
  | "alpha" => some c.isAlpha
  | "blank" => some (c == ' ' || c == '\t')
  | "cntrl" => some (c < ' ' || c == '\x7f')
  | "digit" => some c.isDigit
  | "graph" => some (printing && c != ' ')
  | "lower" => some c.isLower
  | "print" => some printing
  | "punct" => some (printing && c != ' ' && !c.isAlphanum)
  | "space" => some (c == ' ' || ('\t' ≤ c && c ≤ '\r'))
  | "upper" => some c.isUpper
  | "xdigit" => some (c.isDigit || ('a' ≤ c && c ≤ 'f') || ('A' ≤ c && c ≤ 'F'))
  | _ => none

/-- A part of what stands in brackets. -/
inductive Member where
  | range (low high : Char)
  | named (name : String)
deriving DecidableEq, Repr

def Member.holds (c : Char) : Member → Bool
  | .range low high => low ≤ c && c ≤ high
  | .named name => (inClass name c).getD false

/-- A part of a pattern. -/
inductive PatternPart where
  | char (c : Char)
  | anyChar
  | anyText
  | oneOf (inverted : Bool) (members : List Member)
deriving DecidableEq, Repr

/-- The name of a class after its bracket and colon, and what follows it. -/
def className? (gs : List Glyph) : Option (String × List Glyph) :=
  match gs with
  | ⟨':', false⟩ :: gs =>
    let name := (gs.takeWhile fun g => g.char.isAlpha).map Glyph.char
    match gs.drop name.length with
    | ⟨':', false⟩ :: ⟨']', false⟩ :: rest =>
      if (inClass (String.ofList name) 'a').isSome then some (String.ofList name, rest) else none
    | _ => none
  | _ => none

/-- What stands in brackets, and what follows them; none if they are not closed. A closing
bracket that comes first is one of the characters. -/
def members : (fuel : Nat) → (first : Bool) → List Glyph → Option (List Member × List Glyph)
  | 0, _, _ => none
  | _ + 1, _, [] => none
  | fuel + 1, first, g :: gs =>
    if g.means ']' && !first then some ([], gs)
    else match if g.means '[' then className? gs else none with
      | some (name, rest) =>
        (members fuel false rest).map fun r => (.named name :: r.1, r.2)
      | none =>
        match gs with
        | dash :: high :: rest =>
          if dash.means '-' && !high.means ']' then
            (members fuel false rest).map fun r => (.range g.char high.char :: r.1, r.2)
          else (members fuel false gs).map fun r => (.range g.char g.char :: r.1, r.2)
        | _ => (members fuel false gs).map fun r => (.range g.char g.char :: r.1, r.2)

def patternFrom : (fuel : Nat) → List Glyph → List PatternPart
  | 0, _ => []
  | _ + 1, [] => []
  | fuel + 1, g :: gs =>
    if g.means '*' then .anyText :: patternFrom fuel gs
    else if g.means '?' then .anyChar :: patternFrom fuel gs
    else if g.means '[' then
      let (inverted, inside) := match gs with
        | h :: rest => if h.means '!' then (true, rest) else (false, gs)
        | [] => (false, [])
      match members (inside.length + 1) true inside with
      | some (ms, rest) => .oneOf inverted ms :: patternFrom fuel rest
      | none => .char '[' :: patternFrom fuel gs
    else .char g.char :: patternFrom fuel gs

abbrev Pattern := List PatternPart

namespace Pattern

/-- The pattern that characters make up. -/
def ofGlyphs (gs : List Glyph) : Pattern :=
  let gs := Glyph.unescaped gs
  patternFrom (gs.length + 1) gs

/-- Whether a pattern matches more than one text. -/
def isOpen (p : Pattern) : Bool :=
  p.any fun
    | .char _ => false
    | _ => true

def accepts : Pattern → List Char → Bool
  | [], s => s.isEmpty
  | .char c :: p, s => s.head? == some c && accepts p s.tail
  | .anyChar :: p, s => !s.isEmpty && accepts p s.tail
  | .oneOf inverted ms :: p, s =>
    match s with
    | c :: rest => (ms.any (Member.holds c) != inverted) && accepts p rest
    | [] => false
  | .anyText :: p, s => (List.range (s.length + 1)).any fun n => accepts p (s.drop n)

/-- Whether a text matches, or a text before a NUL character. -/
def acceptsFirst (p : Pattern) (s : List Char) : Bool := p.accepts (s.takeWhile (· != '\x00'))

/-- A text without a beginning that matches: the shortest or the longest there is. -/
def trimStart (p : Pattern) (longest : Bool) (s : List Char) : List Char :=
  let ns := List.range (s.length + 1)
  match (if longest then ns.reverse else ns).find? fun n => acceptsFirst p (s.take n) with
  | some n => s.drop n
  | none => s

/-- A text without an end that matches. -/
def trimEnd (p : Pattern) (longest : Bool) (s : List Char) : List Char :=
  let ns := List.range (s.length + 1)
  match (if longest then ns else ns.reverse).find? fun n => acceptsFirst p (s.drop n) with
  | some n => s.take n
  | none => s

end Pattern
end NotebookTidy.Shell
