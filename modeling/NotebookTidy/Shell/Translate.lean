import NotebookTidy.Shell.Arithmetic
import NotebookTidy.Shell.Options
import NotebookTidy.Shell.Pattern
import NotebookTidy.Shell.Quoting

/-! Translating, deleting and squeezing bytes.

A set of bytes is written as characters, ranges, classes and repetitions. It has an order:
where bytes are translated, every byte of the first set becomes the one at the same place
of the second set. -/
namespace NotebookTidy.Shell

/-! ### Sets as they are written -/

/-- A character of a set, and whether it was escaped. -/
structure SetChar where
  char : Char
  escaped : Bool
deriving DecidableEq, Repr

def SetChar.is (x : SetChar) (c : Char) : Bool := !x.escaped && x.char == c

inductive SetElement where
  | char (c : Char)
  | range (low high : Char)
  | named (name : String)
  | alike (c : Char)
  /-- A character so many times; zero stands for as many as are needed. -/
  | repeated (c : Char) (times : Nat)
deriving DecidableEq, Repr

/-- Up to three octal digits that make up a byte, and what follows them; a warning if a
third digit would have been too much. -/
def setOctal (s : List Char) : Option (Char × List Char × Option String) :=
  match octal? 3 s, octal? 2 s with
  | some (n, rest), some (m, shorter) =>
    if n < 256 then some (octetOf n, rest, none)
    else
      let ds := String.ofList (s.take 2)
      let third := String.ofList (shorter.take 1)
      some (octetOf m, shorter, some ("warning: the ambiguous octal escape \\" ++ ds ++ third
        ++ " is being\n\tinterpreted as the 2-byte sequence \\0" ++ ds ++ ", " ++ third))
  | _, _ => none

/-- The characters of a set, its escapes made out, with warnings about them. -/
def setChars : (fuel : Nat) → List Char → List SetChar × List String
  | 0, _ => ([], [])
  | _ + 1, [] => ([], [])
  | fuel + 1, '\\' :: s =>
    match setOctal s, s with
    | some (c, rest, warning), _ =>
      let r := setChars fuel rest
      (⟨c, true⟩ :: r.1, warning.toList ++ r.2)
    | none, c :: rest =>
      let r := setChars fuel rest
      (⟨if c = 'e' then c else (control? c).getD c, true⟩ :: r.1, r.2)
    | none, [] =>
      ([⟨'\\', false⟩], ["warning: an unescaped backslash at end of string is not portable"])
  | fuel + 1, c :: s => let r := setChars fuel s; (⟨c, false⟩ :: r.1, r.2)

/-- What stands before a delimiter and a closing bracket, and what follows them. -/
def operandBefore (delimiter : Char) : List SetChar → Option (List Char × List SetChar)
  | a :: b :: rest =>
    if a.is delimiter && b.is ']' then some ([], rest)
    else (operandBefore delimiter (b :: rest)).map fun r => (a.char :: r.1, r.2)
  | _ => none

/-- Whether a text begins with an asterisk, digits and a closing bracket. -/
def looksRepeated : List SetChar → Bool
  | star :: rest =>
    star.is '*' && ((rest.dropWhile fun x => x.char.isDigit).head?.any fun x => x.is ']')
  | [] => false

/-- The largest number of times that a character may be repeated. -/
def repeatLimit : Nat := 18446744073709551614

/-- How often a character is repeated, from what stands behind the asterisk. -/
def repeatCount? (digits : List Char) : Option Nat :=
  let s := digits.dropWhile isSpace
  let s := if s.head? = some '+' then s.drop 1 else s
  let base := if digits.head? = some '0' then 8 else 10
  if !s.head?.any Char.isDigit then none
  else
    let (n, rest) := digitsFrom base 0 s
    if rest.isEmpty && n ≤ repeatLimit then some n else none

/-- A character and how often it is repeated, after an opening bracket; and what follows. -/
def repetition? (s : List SetChar) : Except String (Option (SetElement × List SetChar)) :=
  match s with
  | c :: star :: rest =>
    if !star.is '*' then .ok none
    else
      let digits := rest.takeWhile fun x => !x.escaped && x.char != ']'
      match rest.drop digits.length with
      | close :: after =>
        if !close.is ']' then .ok none
        else if digits.isEmpty then .ok (some (.repeated c.char 0, after))
        else
          let text := digits.map SetChar.char
          match repeatCount? text with
          | some n => .ok (some (.repeated c.char n, after))
          | none => .error ("invalid repeat count "
              ++ inQuotes (String.ofList (visibleText text)) ++ " in [c*n] construct")
      | [] => .ok none
  | _ => .ok none

/-- A class of characters, or of those that are alike, from its text. -/
def classElement (delimiter : Char) (operand : List Char) : Except String SetElement :=
  let text := String.ofList operand
  if delimiter = ':' then
    if operand.isEmpty then .error "missing character class name '[::]'"
    else if (inClass text 'a').isSome then .ok (.named text)
    else .error ("invalid character class " ++ inQuotes (String.ofList (visibleText operand)))
  else
    match operand with
    | [] => .error "missing equivalence class character '[==]'"
    | [c] => .ok (.alike c)
    | _ => .error (String.ofList (visibleText operand)
        ++ ": equivalence class operand must be a single character")

def shownEndpoint (c : Char) : List Char := if isPrintable c then [c] else '\\' :: octalDigits c

/-- The element of a set that stands in brackets at the start of a text, and what follows
it. -/
def bracketed? (s : List SetChar) : Except String (Option (SetElement × List SetChar)) :=
  match s with
  | bracket :: kind :: rest =>
    if !bracket.is '[' then .ok none
    else
      let delimiter := if kind.is ':' then some ':' else if kind.is '=' then some '=' else none
      match delimiter.bind fun d => (operandBefore d rest).map (d, ·) with
      | none => repetition? (kind :: rest)
      | some (d, operand, after) =>
        match classElement d operand with
        | .ok e => .ok (some (e, after))
        | .error what =>
          if !operand.isEmpty && looksRepeated rest then repetition? (kind :: rest)
          else .error what
  | _ => .ok none

/-- The elements of a set. What has less than three characters is no more than these. -/
def setElements : (fuel : Nat) → List SetChar → Except String (List SetElement)
  | 0, _ => .ok []
  | fuel + 1, s =>
    match s with
    | a :: b :: c :: rest => do
      match ← bracketed? s with
      | some (e, after) => return e :: (← setElements fuel after)
      | none =>
        if b.is '-' then
          if c.char < a.char then
            throw ("range-endpoints of '" ++ String.ofList (shownEndpoint a.char ++ '-' ::
              shownEndpoint c.char) ++ "' are in reverse collating sequence order")
          else return .range a.char c.char :: (← setElements fuel rest)
        else return .char a.char :: (← setElements fuel (b :: c :: rest))
    | s => .ok (s.map fun x => .char x.char)

/-! ### Sets in order -/

def octetRange (low high : Nat) : List Char :=
  (List.range (high + 1 - low)).map fun i => octetOf (low + i)

/-- A class whose letters have partners in the other case. -/
inductive LetterCase where
  | lower
  | upper
deriving DecidableEq, Repr

def SetElement.case? : SetElement → Option LetterCase
  | .named "lower" => some .lower
  | .named "upper" => some .upper
  | _ => none

/-- More repetitions of a character than this make no difference. -/
def repeatBound : Nat := 65536

/-- The characters of an element, in order. -/
def SetElement.chars : SetElement → List Char
  | .char c | .alike c => [c]
  | .range low high => octetRange low.toNat high.toNat
  | .named name => (octetRange 0 255).filter fun c => (inClass name c).getD false
  | .repeated c n => List.replicate (min n repeatBound) c

def SetElement.size : SetElement → Nat
  | .repeated _ n => n
  | e => e.chars.length

abbrev ByteSet := List SetElement

namespace ByteSet

def chars (s : ByteSet) : List Char := s.flatMap SetElement.chars

def size (s : ByteSet) : Nat := (s.map SetElement.size).foldl (· + ·) 0

/-- How many elements are repeated as often as needed. -/
def openRepeats (s : ByteSet) : Nat :=
  (s.filter fun e => match e with
    | .repeated _ 0 => true
    | _ => false).length

def hasClass (s : ByteSet) : Bool :=
  s.any fun e => match e with
    | .named _ => true
    | _ => false

def hasAlike (s : ByteSet) : Bool :=
  s.any fun e => match e with
    | .alike _ => true
    | _ => false

/-- Whether there are classes of characters without partners. -/
def hasUnpaired (s : ByteSet) : Bool :=
  s.any fun e => match e with
    | .named _ => e.case?.isNone
    | _ => false

/-- Fills up what is repeated as often as needed. -/
def filled (s : ByteSet) (n : Nat) : ByteSet :=
  s.map fun e => match e with
    | .repeated c 0 => .repeated c n
    | e => e

end ByteSet

/-- A character of a set in its place: the class of letters that it begins or goes on with,
and whether an element begins with it. -/
structure Placed where
  char : Char
  case? : Option LetterCase
  first : Bool
deriving DecidableEq, Repr

def ByteSet.placed (s : ByteSet) : List Placed :=
  s.flatMap fun e =>
    match e.chars with
    | [] => []
    | c :: cs => ⟨c, e.case?, true⟩ :: cs.map (⟨·, e.case?, false⟩)

/-- Goes on to the next element. -/
def nextElement (ps : List Placed) : List Placed := (ps.drop 1).dropWhile fun p => !p.first

/-- How much too long two sets are to be compared, since letters that change their case count
once for their class; none if a class of the second set has no partner. -/
def caseExcess : (fuel : Nat) → List Placed → List Placed → Option (Nat × Nat)
  | 0, _, _ => some (0, 0)
  | _ + 1, _, [] => some (0, 0)
  | fuel + 1, ps, q :: qs =>
    let partner := ps.head?.any fun p => p.first && p.case?.isSome
    if q.first && q.case?.isSome && !partner then none
    else if q.case?.isSome then
      (caseExcess fuel (nextElement ps) (nextElement (q :: qs))).map fun r =>
        (r.1 + 25, r.2 + 25)
    else if ps.isEmpty then some (0, 0)
    else caseExcess fuel (ps.drop 1) qs

/-! ### What is done to the input -/

structure TranslateOptions where
  complement : Bool
  delete : Bool
  squeeze : Bool
  truncate : Bool
deriving DecidableEq, Repr

namespace TranslateOptions

def table : OptionTable where
  letters := ['A', 'c', 'C', 'd', 's', 't']
  words := [("complement", 'c'), ("delete", 'd'), ("squeeze-repeats", 's'), ("truncate-set1", 't')]
  anywhere := false

def ofLetters (cs : List Char) : TranslateOptions where
  complement := cs.any fun c => c == 'c' || c == 'C'
  delete := cs.contains 'd'
  squeeze := cs.contains 's'
  truncate := cs.contains 't'

end TranslateOptions

/-- What becomes of the input: first bytes are deleted, then translated, and of those that
stand several times in a row only one is left. -/
structure ByteChange where
  deleted : List Char
  translated : List (Char × Char)
  squeezed : List Char

/-- The characters that are not in a set. -/
def others (s : List Char) : List Char := (octetRange 0 255).filter fun c => !s.contains c

/-- Pairs the characters of two sets. Where letters change their case, the classes are
paired as a whole. -/
def pairs : (fuel : Nat) → List Placed → List Placed → List (Char × Char)
  | 0, _, _ => []
  | fuel + 1, p :: ps, q :: qs =>
    let lowers := (octetRange 0 255).filter Char.isLower
    let uppers := (octetRange 0 255).filter Char.isUpper
    let here := match p.case?, q.case? with
      | some .lower, some .upper => lowers.zip uppers
      | some .upper, some .lower => uppers.zip lowers
      | _, _ => [(p.char, q.char)]
    if q.case?.isSome then here ++ pairs fuel (nextElement (p :: ps)) (nextElement (q :: qs))
    else here ++ pairs fuel ps qs
  | _ + 1, _, _ => []

/-- The second set, made as long as the first one with its last character. -/
def extended (second : ByteSet) (missing : Nat) : Except String ByteSet :=
  match second.getLast? with
  | none => .error "when not truncating set1, string2 must be non-empty"
  | some (.named _) => .error ("when translating with string1 longer than string2,\n"
      ++ "the latter string must not end with a character class")
  | some (.char c) | some (.alike c) | some (.range _ c) | some (.repeated c _) =>
    .ok (second ++ [.repeated c missing])

/-- Checks that one set can be translated to another, and makes that as long as needed. -/
def translation (o : TranslateOptions) (first second : ByteSet) (length : Nat) :
    Except String (List (Char × Char) × List Char) := do
  if second.hasAlike then throw "[=c=] expressions may not appear in string2 when translating"
  if second.hasUnpaired then
    throw ("when translating, the only character classes that may appear in\n"
      ++ "string2 are 'upper' and 'lower'")
  let fuel := first.chars.length + second.chars.length + 2
  let (a, b) ←
    if o.complement || !second.hasClass then pure (0, 0)
    else match caseExcess fuel first.placed second.placed with
      | some r => pure r
      | none => throw "misaligned [:upper:] and/or [:lower:] construct"
  let length := length - a
  let size := second.size - b
  let long ←
    if length ≤ size || o.truncate then pure second
    else if size = 0 then throw "when not truncating set1, string2 must be non-empty"
    else extended second (length - size)
  let cs := long.chars
  if o.complement && first.hasClass then
    let homogeneous := !cs.isEmpty && cs.all fun c => cs.head? == some c
    let size := if length ≤ size || o.truncate then size else length
    if !(size == length && homogeneous) then
      throw ("when translating with complemented character classes,\n"
        ++ "string2 must map all characters in the domain to one")
  if o.complement then return ((others first.chars).zip cs, cs)
  else return (pairs (fuel + length) first.placed long.placed, cs)

/-- What a first set asks for, together with a second one if there is any. -/
def byteChange (o : TranslateOptions) (first : ByteSet) (second : Option ByteSet) :
    Except String ByteChange := do
  let chosen := if o.complement then others first.chars else first.chars
  let length := if o.complement then chosen.length else first.size
  if 0 < first.openRepeats then throw "the [c*] repeat construct may not appear in string1"
  match second with
  | none => return if o.delete then ⟨chosen, [], []⟩ else ⟨[], [], chosen⟩
  | some second =>
    let open_ := second.openRepeats
    if 1 < open_ then throw "only one [c*] repeat construct may appear in string2"
    let second :=
      if open_ = 1 ∧ second.size ≤ length then second.filled (length - second.size) else second
    if o.delete then
      if 0 < open_ then
        throw "the [c*] construct may appear in string2 only when translating"
      return ⟨chosen, [], second.chars⟩
    else
      let (table, cs) ← translation o first second length
      return ⟨[], table, if o.squeeze then cs else []⟩

/-- Leaves one of several equal characters in a row, if it is one of these. -/
def leaveOne (set : Array Bool) : Bytes → Bytes
  | a :: b :: rest =>
    if a = b ∧ (set[a.toNat]?.getD false) then leaveOne set (b :: rest)
    else a :: leaveOne set (b :: rest)
  | bytes => bytes

/-- A table of the characters in a list. -/
def tableOf (cs : List Char) : Array Bool :=
  cs.foldl (fun t c => t.setIfInBounds c.toNat true) (Array.replicate 256 false)

def ByteChange.apply (x : ByteChange) (bytes : Bytes) : Bytes :=
  let deleted := tableOf x.deleted
  let table := x.translated.foldl
    (fun (t : Array UInt8) p => t.setIfInBounds p.1.toNat (UInt8.ofNat p.2.toNat))
    ((Array.range 256).map UInt8.ofNat)
  let kept := bytes.filter fun b => !(deleted[b.toNat]?.getD false)
  leaveOne (tableOf x.squeezed) (kept.map fun b => table[b.toNat]?.getD b)

/-! ### Calls -/

/-- A call with its warnings: what it does to the input, or what is wrong with it. -/
structure TranslateCall where
  warnings : List String
  change : Except String ByteChange

/-- What is wrong with the number of sets, if anything is. -/
def operandFault? (o : TranslateOptions) (sets : List String) : Option String :=
  let least := if o.delete == o.squeeze then 2 else 1
  let most := if o.delete && !o.squeeze then 1 else 2
  if sets.length < least then
    match sets.getLast? with
    | none => some "missing operand"
    | some s => some ("missing operand after " ++ inQuotes s ++ "\n"
        ++ (if o.squeeze then
          "Two strings must be given when both deleting and squeezing repeats."
          else "Two strings must be given when translating."))
  else match sets[most]? with
    | some s => some ("extra operand " ++ inQuotes s
        ++ (if sets.length == 2 then
          "\nOnly one string may be given when deleting without squeezing repeats." else ""))
    | none => none

/-- Reads sets up to the first that is at fault, with the warnings until then. -/
def readSets : List String → List String × Except String (List ByteSet)
  | [] => ([], .ok [])
  | s :: rest =>
    let (cs, warnings) := setChars (s.length + 1) s.toList
    match setElements (cs.length + 1) cs with
    | .error what => (warnings, .error what)
    | .ok e =>
      let (more, sets) := readSets rest
      (warnings ++ more, sets.map (e :: ·))

/-- A call whose options are known. -/
def translateCall (o : TranslateOptions) (sets : List String) : TranslateCall :=
  let (warnings, read) := readSets sets
  ⟨warnings, do
    match ← read with
    | first :: second => byteChange o first second.head?
    | [] => return ⟨[], [], []⟩⟩

end NotebookTidy.Shell
