import NotebookTidy.Decimal.Shortest
import NotebookTidy.Shell.Arithmetic

/-! Numbers with a fraction, as text.

A number is read as the double nearest to it, and written from the exact value of that
double, rounded to the places that are asked for; a tie goes to the even digit. -/
namespace NotebookTidy.Shell

open NotebookTidy.Decimal

/-- What a number is without its sign. -/
inductive Size where
  | finite (m : Magnitude)
  | infinite
  | undefined
deriving DecidableEq, Repr

/-- A number that may have a fraction. -/
structure Floating where
  negative : Bool
  size : Size
deriving DecidableEq, Repr

/-! ### Reading -/

/-- The double nearest to a quotient, and whether the quotient is out of range: too large,
or so small that digits of it are lost. -/
def nearestSize (num den : Nat) : Size × Bool :=
  match Magnitude.nearest num den with
  | none => (.infinite, true)
  | some m =>
    let (a, b) := m.ratio
    (.finite m, m.significand < twoTo 52 && a * den != num * b)

/-- The double nearest to `n * base ^ e`, and whether that is out of range. Powers far past
all doubles are not worked out. -/
def scaledSize (n base : Nat) (e : Int) : Size × Bool :=
  let bits : Int := Nat.log2 n + Nat.log2 base * e
  if n = 0 then nearestSize 0 1
  else if 1100 < bits then (.infinite, true)
  else if bits < -1100 then ((nearestSize 0 1).1, true)
  else if 0 ≤ e then nearestSize (n * Nat.pow base e.toNat) 1
  else nearestSize n (Nat.pow base (-e).toNat)

/-- Digits with a point among them at most: the number they make without it, how many of
them follow it, and what comes after them. -/
def pointed? (base : Nat) (s : List Char) : Option (Nat × Nat × List Char) :=
  let isDigit (c : Char) : Bool := (digitValue? c).any (· < base)
  let whole := s.takeWhile isDigit
  let rest := s.drop whole.length
  let (part, rest) := match rest with
    | '.' :: r => let p := r.takeWhile isDigit; (p, r.drop p.length)
    | r => ([], r)
  if whole.isEmpty && part.isEmpty then none
  else some ((digitsFrom base 0 (whole ++ part)).1, part.length, rest)

/-- The exponent behind a letter, and what follows it; zero if there is none. -/
def exponentAfter (letter : Char) (s : List Char) : Int × List Char :=
  match s with
  | c :: cs =>
    let (negative, digits) := afterSign cs
    if c.toLower = letter && digits.head?.any Char.isDigit then
      let (n, rest) := digitsFrom 10 0 digits
      (if negative then -n else n, rest)
    else (0, s)
  | [] => (0, [])

/-- What follows a word, in letters of either case. -/
def afterWord? (word : String) (s : List Char) : Option (List Char) :=
  let n := word.length
  if (s.take n).map Char.toLower = word.toList then some (s.drop n) else none

/-- What may follow the word for an undefined number: a name in brackets. -/
def afterTag (s : List Char) : List Char :=
  match s with
  | '(' :: cs =>
    match cs.dropWhile continuesName with
    | ')' :: rest => rest
    | _ => s
  | _ => s

/-- A number at the start of a text, without a sign: its size, whether it was out of range,
and what follows it. -/
def sizeAt? (s : List Char) : Option ((Size × Bool) × List Char) :=
  let hexadecimal := do
    let (n, places, rest) ← pointed? 16 (← afterWord? "0x" s)
    let (e, rest) := exponentAfter 'p' rest
    some (scaledSize n 2 (e - 4 * places), rest)
  let decimal := do
    let (n, places, rest) ← pointed? 10 s
    let (e, rest) := exponentAfter 'e' rest
    some (scaledSize n 10 (e - places), rest)
  let infinite := (afterWord? "infinity" s <|> afterWord? "inf" s).map ((.infinite, false), ·)
  let undefined := (afterWord? "nan" s).map fun rest => ((.undefined, false), afterTag rest)
  hexadecimal <|> decimal <|> infinite <|> undefined

/-- The number that an argument stands for, with a complaint if it is none. A quote asks for
the character after it. -/
def floatingArgument (arg : String) : Floating × Option String :=
  match arg.toList with
  | [] => (⟨false, (nearestSize 0 1).1⟩, none)
  | '"' :: cs | '\'' :: cs =>
    (⟨false, (nearestSize ((cs.head?.map Char.toNat).getD 0) 1).1⟩, none)
  | cs =>
    let (negative, digits) := afterSign (cs.dropWhile isSpace)
    match sizeAt? digits with
    | none => (⟨false, (nearestSize 0 1).1⟩, some (arg ++ ": expected numeric value"))
    | some ((size, outOfRange), rest) =>
      (⟨negative, size⟩,
        if !rest.isEmpty then some (arg ++ ": not completely converted")
        else if outOfRange then some (arg ++ ": Numerical result out of range")
        else none)

/-! ### Writing -/

/-- The text of a number in its parts: the digits before the point and behind it, and the
exponent. -/
structure NumberText where
  whole : List Char
  part : List Char
  exponent : List Char
deriving DecidableEq, Repr

namespace NumberText

def withoutZeros (t : NumberText) : NumberText :=
  { t with part := (t.part.reverse.dropWhile (· == '0')).reverse }

/-- The point is written if digits follow it, or if it is asked for. -/
def render (t : NumberText) (point : Bool) : List Char :=
  t.whole ++ (if t.part.isEmpty && !point then [] else '.' :: t.part) ++ t.exponent

/-- A number of units of the last of so many places. -/
def ofUnits (base n places : Nat) (exponent : List Char) : NumberText :=
  let digits := Nat.toDigits base n
  let digits := List.replicate (places + 1 - digits.length) '0' ++ digits
  ⟨digits.take (digits.length - places), digits.drop (digits.length - places), exponent⟩

end NumberText

/-- An exponent behind its letter, with a sign and at least so many digits. -/
def exponentText (letter : Char) (width : Nat) (e : Int) : List Char :=
  let digits := Nat.toDigits 10 e.natAbs
  letter :: (if e < 0 then '-' else '+') ::
    (List.replicate (width - digits.length) '0' ++ digits)

/-- A number with so many places behind the point. -/
def positional (m : Magnitude) (places : Nat) : NumberText :=
  let (num, den) := m.ratio
  .ofUnits 10 (Magnitude.divideRounding (num * tenTo places) den) places []

/-- A number as digits of which one stands before the point, with the exponent that the
first of them has. -/
def scientific (m : Magnitude) (places : Nat) : NumberText × Int :=
  let (num, den) := m.ratio
  let e := if m.isZero then 0 else Magnitude.decimalExponent num den
  let shift := (places : Int) - e
  let n := if 0 ≤ shift then Magnitude.divideRounding (num * tenTo shift.toNat) den
    else Magnitude.divideRounding num (den * tenTo (-shift).toNat)
  let (n, e) := if n = tenTo (places + 1) then (tenTo places, e + 1) else (n, e)
  (.ofUnits 10 n places (exponentText 'e' 2 e), e)

/-- A number with so many digits, with an exponent only if it is small or large. A number
that is large only because it was rounded has no digits behind its point. -/
def general (m : Magnitude) (precision : Nat) : NumberText :=
  let digits := max precision 1
  let (t, e) := scientific m (digits - 1)
  if -4 ≤ e ∧ e < digits then positional m (digits - 1 - e).toNat
  else
    let (num, den) := m.ratio
    if e = digits ∧ !m.isZero ∧ Magnitude.decimalExponent num den < e then { t with part := [] }
    else t

/-- A number in hexadecimal digits and a power of two: all the digits it has, or so many
places of them. -/
def hexadecimal (m : Magnitude) (precision : Option Nat) : NumberText :=
  let e := if m.isZero then 0 else m.exponent + 52
  let exponent := exponentText 'p' 1 e
  match precision with
  | none => (NumberText.ofUnits 16 m.significand 13 exponent).withoutZeros
  | some p =>
    let n := if p ≤ 13 then Magnitude.divideRounding m.significand (Nat.pow 16 (13 - p))
      else m.significand * Nat.pow 16 (p - 13)
    .ofUnits 16 n p exponent

/-- What is to be written before the digits of a number, and the digits. -/
def sizeText (size : Size) (precision : Option Nat) (marked : Bool) (conversion : Char) :
    List Char × List Char :=
  match size with
  | .infinite => ([], "inf".toList)
  | .undefined => ([], "nan".toList)
  | .finite m =>
    let places := precision.getD 6
    match conversion with
    | 'f' => ([], (positional m places).render marked)
    | 'e' => ([], (scientific m places).1.render marked)
    | 'g' =>
      let t := general m places
      ([], if marked then t.render true else t.withoutZeros.render false)
    | _ => (['0', 'x'], (hexadecimal m precision).render marked)

/-- A number by a conversion: with an exponent or without, in decimal or hexadecimal digits.
A capital letter asks for capital letters. -/
def floatingText (flags : List Char) (width : Nat) (precision : Option Nat) (conversion : Char)
    (x : Floating) : List Char :=
  let (mark, digits) := sizeText x.size precision (flags.contains '#') conversion.toLower
  let sign : List Char :=
    if x.negative then ['-'] else if flags.contains '+' then ['+']
    else if flags.contains ' ' then [' '] else []
  let head := sign ++ mark
  let isFinite := match x.size with
    | .finite _ => true
    | _ => false
  let zeros :=
    if isFinite && flags.contains '0' && !flags.contains '-' then
      List.replicate (width - head.length - digits.length) '0'
    else []
  let text := head ++ zeros ++ digits
  if conversion.isUpper then text.map Char.toUpper else text

end NotebookTidy.Shell
