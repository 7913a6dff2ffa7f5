import NotebookTidy.Decimal.Double
import NotebookTidy.Toml.Scan

/-! Reading TOML numbers, dates and times.

A bare word that looks like a number or a date may go on after a point, a colon or a
plus sign. Integers have 64 bits, doubles are finite unless they are written `inf` or
`nan`. Dates and times are told by their shape only. -/
namespace NotebookTidy.Toml

/-! ### Digits -/

def digitValue? (radix : Nat) (c : Char) : Option Nat :=
  match Text.hexValue? c with
  | some d => if d < radix then some d else none
  | none => none

/-- Where digits are being read. -/
structure DigitState where
  first : Bool
  leadingZero : Bool
  afterUnderscore : Bool

/-- Reads digits with single underscores between them, leaving the underscores out. -/
def digitsFrom (radix : Nat) (leadingZeros : Bool) (st : DigitState) :
    List Char → Option (List Nat × List Char)
  | [] => if st.first || st.afterUnderscore then none else some ([], [])
  | c :: s =>
    match digitValue? radix c with
    | some d =>
      if !st.first && st.leadingZero && !leadingZeros then none
      else do
        let zero := st.leadingZero || (st.first && d == 0)
        let (ds, s) ← digitsFrom radix leadingZeros ⟨false, zero, false⟩ s
        some (d :: ds, s)
    | none =>
      if c = '_' ∧ ¬ st.first ∧ ¬ st.afterUnderscore then
        digitsFrom radix leadingZeros { st with afterUnderscore := true } s
      else if st.first || st.afterUnderscore then none
      else some ([], c :: s)

def digits (radix : Nat) (leadingZeros : Bool) (s : List Char) :
    Option (List Nat × List Char) :=
  digitsFrom radix leadingZeros ⟨true, false, false⟩ s

def valueOf (radix : Nat) (ds : List Nat) : Nat :=
  ds.foldl (fun n d => n * radix + d) 0

/-- Digits with an optional sign. -/
def signedDigits (leadingZeros : Bool) (s : List Char) :
    Option (Bool × List Nat × List Char) :=
  match s with
  | '-' :: s => (digits 10 leadingZeros s).map fun (ds, s) => (true, ds, s)
  | s => (digits 10 leadingZeros s).map fun (ds, s) => (false, ds, s)

/-! ### Integers -/

def fitsInteger (n : Int) : Bool :=
  -(Decimal.twoTo 63 : Int) ≤ n && n < (Decimal.twoTo 63 : Int)

def integer (n : Int) : Option Value :=
  if fitsInteger n then some (.integer n) else none

/-- A whole word of digits. -/
def plainInteger (radix : Nat) (word : List Char) : Option Value :=
  match digits radix true word with
  | some (ds, []) => integer (valueOf radix ds)
  | _ => none

def decimalInteger (word : List Char) : Option Value :=
  match signedDigits false word with
  | some (negative, ds, []) =>
    let n : Int := valueOf 10 ds
    integer (if negative then -n else n)
  | _ => none

/-! ### Doubles -/

/-- Whether `n * 10 ^ e` has a double. Far from the largest double that is told by the
number of digits. -/
def isFinite (n : Nat) (e : Int) : Bool :=
  let places : Int := (Nat.toDigits 10 n).length + e
  n == 0 || places ≤ 308
    || (places ≤ 310 && (Decimal.Magnitude.nearestDecimal n e).isSome)

def float (whole fraction : List Nat) (exponent : Int) : Option Value :=
  if isFinite (valueOf 10 (whole ++ fraction)) (exponent - fraction.length) then some .float
  else none

/-- Reads an exponent, of which the word so far has `rest`. After a plus sign the exponent
is a word of its own. -/
def exponent (rest : List Char) (s : List Char) : Option (Int × List Char) :=
  match rest with
  | [] => some (0, s)
  | e :: rest =>
    if e ≠ 'e' ∧ e ≠ 'E' then none
    else match rest with
      | [] => do
        let (word, s) ← bareWord ((char '+' s).getD s)
        match digits 10 true word with
        | some (ds, []) => some (valueOf 10 ds, s)
        | _ => none
      | rest =>
        match signedDigits true rest with
        | some (negative, ds, []) =>
          let n : Int := valueOf 10 ds
          some (if negative then -n else n, s)
        | _ => none

/-- A number with an exponent and no fraction. -/
def exponentFloat (word s : List Char) : Option (Value × List Char) := do
  let (_, whole, rest) ← signedDigits false word
  let (e, s) ← exponent rest s
  let v ← float whole [] e
  some (v, s)

/-- A number with a fraction, which follows a point. -/
def fractionFloat (word s : List Char) : Option (Value × List Char) := do
  let (_, whole, rest) ← signedDigits false word
  if rest ≠ [] then none
  else
    let (after, s) ← bareWord s
    let (fraction, rest) ← digits 10 true after
    let (e, s) ← exponent rest s
    let v ← float whole fraction e
    some (v, s)

/-! ### Numbers -/

/-- The number that begins with a word. -/
def number (word s : List Char) : Option (Value × List Char) :=
  match word with
  | '0' :: 'x' :: ds => (plainInteger 16 ds).map (·, s)
  | '0' :: 'o' :: ds => (plainInteger 8 ds).map (·, s)
  | '0' :: 'b' :: ds => (plainInteger 2 ds).map (·, s)
  | word =>
    if word.contains 'e' || word.contains 'E' then exponentFloat word s
    else match s with
      | '.' :: s => fractionFloat word s
      | s =>
        if word = "inf".toList ∨ word = "-inf".toList ∨ word = "nan".toList
          ∨ word = "-nan".toList then some (.float, s)
        else (decimalInteger word).map (·, s)

/-! ### Dates and times -/

def startsWord : List Char → Bool
  | c :: _ => isBare c
  | [] => false

/-- Passes a word that has to come next. -/
def anyWord (s : List Char) : Option (List Char) := (bareWord s).map Prod.snd

/-- Passes a character, and the word that then has to follow. -/
def optionalWord (c : Char) (s : List Char) : Option (List Char) :=
  match char c s with
  | some s => anyWord s
  | none => some s

/-- Passes minutes, seconds, their fraction, and the offset. -/
def clock (s : List Char) : Option (List Char) := do
  let s ← anyWord s
  let s ← char ':' s
  let s ← anyWord s
  let s ← optionalWord '.' s
  let s ← optionalWord '+' s
  optionalWord ':' s

/-- Passes what follows the first word of a date. The hour may follow a single space. -/
def momentRest (colonRead : Bool) (s : List Char) : Option (List Char) :=
  let s := match s with
    | ' ' :: rest => if startsWord rest then rest.dropWhile isBare else s
    | s => s
  if colonRead then clock s
  else match char ':' s with
    | some s => clock s
    | none => some s

def hasPair (a b : Char) : List Char → Bool
  | c :: d :: s => (c == a && d == b) || hasPair a b (d :: s)
  | _ => false

/-- A word that can only be a date: it has a `T`, or a hyphen that is neither its sign nor
that of an exponent. -/
def looksLikeDate (word : List Char) : Bool :=
  word.contains 'T' || word.contains 't'
    || ((word.drop 1).contains '-' && !hasPair 'e' '-' word && !hasPair 'E' '-' word)

def numberOrMoment (word s : List Char) : Option (Value × List Char) :=
  if looksLikeDate word then (momentRest false s).map (.moment, ·)
  else match char ':' s with
    | some s => (momentRest true s).map (.moment, ·)
    | none => number word s

/-- The value that begins with a bare word. -/
def bareValue (word s : List Char) : Option (Value × List Char) :=
  if word = "true".toList then some (.bool true, s)
  else if word = "false".toList then some (.bool false, s)
  else if word = "inf".toList ∨ word = "nan".toList then numberOrMoment word s
  else match word with
    | c :: _ => if c = '-' ∨ c.isDigit then numberOrMoment word s else none
    | [] => none

end NotebookTidy.Toml
