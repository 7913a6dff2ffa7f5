import NotebookTidy.Json.Scan

/-! Reading numbers.

The digits before the point and after it are gathered into a significand of 64 bits.
A digit that no longer fits is dropped, with all digits after it: before the point
each dropped digit raises the exponent by one, after the point it counts for nothing.
The double is the significand, rounded, then multiplied or divided once by a power of
ten, each step rounding; so the last bit may differ from that of the nearest double. -/
namespace NotebookTidy.Json
open Decimal

def maxSignificand : Nat := twoTo 64 - 1

/-- The largest exponent that is read digit by digit. -/
def maxWrittenExponent : Nat := twoTo 31 - 1

/-- The largest power of ten that is a double. -/
def maxPower : Nat := 308

def digit? (c : Char) : Option Nat :=
  if '0' ≤ c ∧ c ≤ '9' then some (c.toNat - '0'.toNat) else none

def isDigit (c : Char) : Bool := (digit? c).isSome

def startsWithDigit : List Char → Bool
  | c :: _ => isDigit c
  | [] => false

/-! ### The double of a significand and an exponent -/

def powerOfTen? (n : Nat) : Option Magnitude := Magnitude.nearest (tenTo n) 1

/-- `x * 10 ^ exponent`; `none` past the largest double. An exponent below the range of
powers is worked off by dividing by the largest power, which at most `steps` divisions
do. -/
def scaleByPower (x : Magnitude) : (steps : Nat) → (exponent : Int) → Option Magnitude
  | steps, exponent =>
    if exponent.natAbs ≤ maxPower then do
      let power ← powerOfTen? exponent.natAbs
      if 0 ≤ exponent then x.mul power else x.div power
    else if x.isZero then some x
    else if 0 ≤ exponent then none
    else match steps with
      | 0 => none
      | steps + 1 => do
        let power ← powerOfTen? maxPower
        let y ← x.div power
        scaleByPower y steps (exponent + maxPower)

/-- The double that is read for a significand and an exponent. Two divisions by the
largest power bring every significand to zero. -/
def scaledDouble? (significand : Nat) (exponent : Int) : Option Magnitude := do
  let x ← Magnitude.nearest significand 1
  scaleByPower x 3 exponent

/-- The number read, or a fault when it is too large. -/
def finishDouble (negative : Bool) (significand : Nat) (exponent : Int) (s : List Char) :
    Except Fault (Number × List Char) :=
  match scaledDouble? significand exponent with
  | some m => .ok (.float ⟨negative, m⟩, s)
  | none => .error (.here .numberOutOfRange s)

/-! ### Gathering digits -/

/-- Adds digits to a significand as long as they fit, counting them. -/
def gather (limit : Nat) (significand count : Nat) : List Char → Nat × Nat × List Char
  | [] => (significand, count, [])
  | c :: s =>
    match digit? c with
    | some d =>
      if significand * 10 + d ≤ limit then gather limit (significand * 10 + d) (count + 1) s
      else (significand, count, c :: s)
    | none => (significand, count, c :: s)

/-- Drops digits, counting them. -/
def dropDigits (count : Nat) : List Char → Nat × List Char
  | [] => (count, [])
  | c :: s => if isDigit c then dropDigits (count + 1) s else (count, c :: s)

/-! ### The parts of a number -/

/-- Reads an exponent after its `e`. -/
def exponentPart (negative : Bool) (significand : Nat) (exponent : Int) (s : List Char) :
    Except Fault (Number × List Char) :=
  let (down, s) := match s with
    | '+' :: s => (false, s)
    | '-' :: s => (true, s)
    | s => (false, s)
  match s with
  | [] => .error (.here .eofInValue [])
  | c :: rest =>
    if isDigit c then
      let (written, _, s) := gather maxWrittenExponent 0 0 s
      if startsWithDigit s then
        if significand ≠ 0 ∧ ¬ down then .error (.here .numberOutOfRange s.tail)
        else .ok (.float ⟨negative, ⟨0, Magnitude.minExponent⟩⟩, (dropDigits 0 s).2)
      else
        let exponent := if down then exponent - written else exponent + written
        finishDouble negative significand exponent s
    else .error (.next .invalidNumber (c :: rest))

/-- What may follow the digits of a number that is a double. -/
def doubleEnd (negative : Bool) (significand : Nat) (exponent : Int) : List Char →
    Except Fault (Number × List Char)
  | 'e' :: s => exponentPart negative significand exponent s
  | 'E' :: s => exponentPart negative significand exponent s
  | s => finishDouble negative significand exponent s

/-- Reads a fraction after its point. -/
def fractionPart (negative : Bool) (significand : Nat) (exponent : Int) (s : List Char) :
    Except Fault (Number × List Char) :=
  let (significand, count, s) := gather maxSignificand significand 0 s
  if startsWithDigit s then doubleEnd negative significand (exponent - count) (dropDigits 0 s).2
  else if count = 0 then
    match s with
    | [] => .error (.here .eofInValue [])
    | s => .error (.next .invalidNumber s)
  else doubleEnd negative significand (exponent - count) s

/-- An integer of 64 bits, signed if it is negative, or the double of one that is not.
The negative zero is a double. -/
def finishInteger (negative : Bool) (significand : Nat) : Number :=
  if negative then
    if 0 < significand ∧ significand ≤ twoTo 63 then .int (-significand)
    else .float ⟨true, (Magnitude.nearest significand 1).getD ⟨0, Magnitude.minExponent⟩⟩
  else .int significand

/-- What may follow the digits of an integer. -/
def afterInteger (negative : Bool) (significand : Nat) : List Char →
    Except Fault (Number × List Char)
  | '.' :: s => fractionPart negative significand 0 s
  | 'e' :: s => exponentPart negative significand 0 s
  | 'E' :: s => exponentPart negative significand 0 s
  | s => .ok (finishInteger negative significand, s)

/-- What may follow an integer whose last digits were dropped. -/
def afterLongInteger (negative : Bool) (significand : Nat) (exponent : Int) : List Char →
    Except Fault (Number × List Char)
  | '.' :: s => fractionPart negative significand exponent s
  | s => doubleEnd negative significand exponent s

/-- Reads a number after its sign. -/
def numberRest (negative : Bool) : List Char → Except Fault (Number × List Char)
  | [] => .error (.here .eofInValue [])
  | c :: s =>
    if c = '0' then
      if startsWithDigit s then .error (.next .invalidNumber s) else afterInteger negative 0 s
    else if isDigit c then
      let (significand, _, s) := gather maxSignificand 0 0 (c :: s)
      if startsWithDigit s then
        let (dropped, s) := dropDigits 0 s
        afterLongInteger negative significand dropped s
      else afterInteger negative significand s
    else .error (.next .invalidNumber (c :: s))

end NotebookTidy.Json
