import NotebookTidy.Decimal.Shortest
import NotebookTidy.Json.Value

/-! The text of a number and of a truth value.

An integer is its decimal digits. A double is its shortest decimal: written out, with
a point and at least one digit after it, when its first digit stands from the fifth
place after the point to the sixteenth before it, and otherwise as one digit, the
rest of them after a point, and a signed exponent. -/
namespace NotebookTidy.Json
open Decimal

def boolText (b : Bool) : List Char :=
  if b then ['t', 'r', 'u', 'e'] else ['f', 'a', 'l', 's', 'e']

/-- The positions of the first digit, counted from the one before the point, at
which a double is written out. -/
def leastPositional : Int := -5
def mostPositional : Int := 15

def digitsOf (n : Nat) : List Char := Nat.toDigits 10 n

def intDigits (n : Int) : List Char :=
  if n < 0 then '-' :: digitsOf n.natAbs else digitsOf n.natAbs

/-- Digits without the zeros at their end. -/
def significantDigits (s : Scientific) : List Char :=
  ((digitsOf s.digits).reverse.dropWhile (· == '0')).reverse

def positional (ds : List Char) (x : Int) : List Char :=
  if x < 0 then '0' :: '.' :: List.replicate (-x - 1).toNat '0' ++ ds
  else
    let whole := x.toNat + 1
    let padded := ds ++ List.replicate (whole - ds.length) '0'
    let fraction := padded.drop whole
    padded.take whole ++ '.' :: (if fraction.isEmpty then ['0'] else fraction)

def withExponent (ds : List Char) (x : Int) : List Char :=
  let mantissa := match ds with
    | [] => []
    | [d] => [d]
    | d :: rest => d :: '.' :: rest
  mantissa ++ 'e' :: (if x < 0 then '-' else '+') :: digitsOf x.natAbs

/-- A positive double. -/
def magnitudeText (m : Magnitude) : List Char :=
  let s := m.shortest
  let x : Int := s.exponent + (digitsOf s.digits).length - 1
  let ds := significantDigits s
  if leastPositional ≤ x ∧ x ≤ mostPositional then positional ds x else withExponent ds x

def doubleText (x : Double) : List Char :=
  let body := if x.magnitude.isZero then ['0', '.', '0'] else magnitudeText x.magnitude
  if x.negative then '-' :: body else body

def Number.text : Number → List Char
  | .int n => intDigits n
  | .float x => doubleText x

end NotebookTidy.Json
