/-! Double precision numbers, exactly.

A finite double is a sign, a significand below 2^53 and a power of two, and its
arithmetic is integer arithmetic followed by one rounding to the nearest double.
Nothing here is a machine number: `nearest` rounds the quotient of two natural
numbers, ties going to the even significand, and every operation is an exact
quotient handed to it. -/
namespace NotebookTidy.Decimal

def twoTo (n : Nat) : Nat := Nat.pow 2 n

def tenTo (n : Nat) : Nat := Nat.pow 10 n

/-- The number `significand * 2 ^ exponent`. -/
structure Magnitude where
  significand : Nat
  exponent : Int
deriving DecidableEq, Repr

namespace Magnitude

/-- Number of bits of a significand. -/
def precision : Nat := 53

def minExponent : Int := -1074
def maxExponent : Int := 971

/-- The quotient rounded to the nearest natural number, a tie to the even one. -/
def divideRounding (num den : Nat) : Nat :=
  let q := num / den
  let twice := 2 * (num % den)
  if den < twice || (twice == den && q % 2 == 1) then q + 1 else q

/-- `num * 2 ^ -e / den` as a quotient of natural numbers. -/
def scaled (num den : Nat) (e : Int) : Nat × Nat :=
  if 0 ≤ e then (num, den * twoTo e.toNat) else (num * twoTo (-e).toNat, den)

/-- The exponent at which `num / den` has a significand of 53 bits, or the least
exponent there is. -/
def exponentOf (num den : Nat) : Int :=
  let guess : Int := (Nat.log2 num : Int) - Nat.log2 den - 52
  let (a, b) := scaled num den guess
  let e := if a < b * twoTo (precision - 1) then guess - 1 else guess
  max e minExponent

/-- The double nearest to `num / den`; `none` past the largest finite one. -/
def nearest (num den : Nat) : Option Magnitude :=
  let e := exponentOf num den
  let (a, b) := scaled num den e
  let s := divideRounding a b
  let r : Magnitude := if s = twoTo precision then ⟨twoTo (precision - 1), e + 1⟩ else ⟨s, e⟩
  if r.exponent ≤ maxExponent then some r else none

/-- The double nearest to `num * 2 ^ e / den`. -/
def nearestScaled (num den : Nat) (e : Int) : Option Magnitude :=
  if 0 ≤ e then nearest (num * twoTo e.toNat) den else nearest num (den * twoTo (-e).toNat)

/-- The double nearest to `num * 10 ^ e`. -/
def nearestDecimal (num : Nat) (e : Int) : Option Magnitude :=
  if 0 ≤ e then nearest (num * tenTo e.toNat) 1 else nearest num (tenTo (-e).toNat)

def isZero (x : Magnitude) : Bool := x.significand == 0

def mul (x y : Magnitude) : Option Magnitude :=
  nearestScaled (x.significand * y.significand) 1 (x.exponent + y.exponent)

/-- The quotient by a double other than zero. -/
def div (x y : Magnitude) : Option Magnitude :=
  nearestScaled x.significand y.significand (x.exponent - y.exponent)

end Magnitude

/-- A finite double. Zero has a sign. -/
structure Double where
  negative : Bool
  magnitude : Magnitude
deriving DecidableEq, Repr

end NotebookTidy.Decimal
