import NotebookTidy.Decimal.Double

/-! The shortest decimal that reads back.

Of the decimals nearest to a double on the grids of one, two, three and more
digits, the first that rounds to the double is its shortest decimal. A grid has two
candidates, the neighbours of the double on either side: the nearer one is taken,
and of two equally near ones the even one. Seventeen digits always suffice. -/
namespace NotebookTidy.Decimal

/-- The number `digits * 10 ^ exponent`. -/
structure Scientific where
  digits : Nat
  exponent : Int
deriving DecidableEq, Repr

namespace Magnitude

/-- The double as a quotient of natural numbers. -/
def ratio (x : Magnitude) : Nat × Nat :=
  if 0 ≤ x.exponent then (x.significand * twoTo x.exponent.toNat, 1)
  else (x.significand, twoTo (-x.exponent).toNat)

/-- Number of decimal digits of a natural number; none for zero. -/
def digitCount (n : Nat) : Nat :=
  if n = 0 then 0 else (Nat.toDigits 10 n).length

/-- The exponent `e` for which a positive quotient lies in `[10 ^ e, 10 ^ (e + 1))`. -/
def decimalExponent (num den : Nat) : Int :=
  let guess : Int := (digitCount num : Int) - digitCount den
  let below :=
    if 0 ≤ guess then num < den * tenTo guess.toNat else num * tenTo (-guess).toNat < den
  if below then guess - 1 else guess

/-- The neighbours of `num / den` on the grid of multiples of `10 ^ e`, the nearer
one first. -/
def candidates (num den : Nat) (e : Int) : List Nat :=
  let (a, b) := if 0 ≤ e then (num, den * tenTo e.toNat) else (num * tenTo (-e).toNat, den)
  let low := a / b
  if divideRounding a b = low then [low, low + 1] else [low + 1, low]

/-- The first candidate on the grid of `count` digits that reads back as `x`. -/
def withDigits? (x : Magnitude) (count : Nat) : Option Scientific :=
  let (num, den) := x.ratio
  let e := decimalExponent num den - (count : Int) + 1
  ((candidates num den e).find? fun d => nearestDecimal d e == some x).map (⟨·, e⟩)

/-- The shortest decimal of a double other than zero. -/
def shortest (x : Magnitude) : Scientific :=
  let grids := (List.range 17).map (· + 1)
  (grids.findSome? x.withDigits?).getD ⟨x.significand, 0⟩

end Magnitude
end NotebookTidy.Decimal
