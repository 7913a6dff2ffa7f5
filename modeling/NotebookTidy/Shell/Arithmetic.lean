import NotebookTidy.Shell.Octets

/-! Integer expressions.

Integers have 64 bits and wrap. An expression is read into a tree whose leaves also hold
what could not be read, so that the faults of an expression are found in the order in which
it is worked out. -/
namespace NotebookTidy.Shell

/-! ### Integers as text -/

/-- The value of a digit, also of a letter. -/
def digitValue? (c : Char) : Option Nat :=
  if c.isDigit then some (c.toNat - '0'.toNat)
  else if 'a' ≤ c && c ≤ 'z' then some (c.toNat - 'a'.toNat + 10)
  else if 'A' ≤ c && c ≤ 'Z' then some (c.toNat - 'A'.toNat + 10)
  else none

/-- Digits at the start of a text, as a number, and what follows them. -/
def digitsFrom (base : Nat) (value : Nat) : List Char → Nat × List Char
  | [] => (value, [])
  | c :: cs =>
    match digitValue? c with
    | some d => if d < base then digitsFrom base (value * base + d) cs else (value, c :: cs)
    | none => (value, c :: cs)

/-- An unsigned number, in the base that its first characters ask for. -/
def unsignedNumber (s : List Char) : Nat × List Char :=
  match s with
  | '0' :: x :: c :: cs =>
    if (x = 'x' ∨ x = 'X') ∧ ((digitValue? c).any (· < 16)) then digitsFrom 16 0 (c :: cs)
    else digitsFrom 8 0 s
  | '0' :: _ => digitsFrom 8 0 s
  | _ => digitsFrom 10 0 s

def isSpace (c : Char) : Bool := c == ' ' || ('\t' ≤ c && c ≤ '\r')

/-- Whether a text begins with a minus, and what follows its sign. -/
def afterSign : List Char → Bool × List Char
  | '-' :: cs => (true, cs)
  | '+' :: cs => (false, cs)
  | cs => (false, cs)

def largest : Int := 9223372036854775807
def smallest : Int := -9223372036854775808

/-- The value of a text that is a number, with blanks around it at most. A blank text is
zero only where any base may be used. -/
def integerText? (anyBase : Bool) (text : String) : Option Int := do
  let s := text.toList.dropWhile isSpace
  let (negative, digits) := afterSign s
  let (value, rest) :=
    if digits.head?.any Char.isDigit then
      if anyBase then unsignedNumber digits else digitsFrom 10 0 digits
    else (0, text.toList)
  let read := digits.head?.any Char.isDigit
  if !read && !anyBase then none
  else if !(rest.dropWhile isSpace).isEmpty then none
  else
    let value : Int := if negative then -value else value
    if value < smallest ∨ largest < value then none else some value

/-! ### Reading expressions -/

inductive ArithmeticFault where
  | primary
  | closing
  | colon
  | ending
  | zeroDivisor
  /-- A variable whose value is no number. -/
  | notANumber (text : String)
deriving DecidableEq, Repr

inductive Expression where
  | number (n : Int64)
  | variable (name : String)
  | unary (operator : String) (e : Expression)
  | binary (operator : String) (a b : Expression)
  | both (a b : Expression)
  | either (a b : Expression)
  | choice (test a b : Expression)
  /-- An assignment, and the operator that comes before its equals sign, if any. -/
  | assign (name operator : String) (e : Expression)
  /-- Something that is to be worked out, and then is at fault. -/
  | faulty (e : Option Expression) (f : ArithmeticFault)

inductive ArithmeticToken where
  | number (n : Int64)
  | name (s : String)
  | operator (s : String)
  | other
deriving DecidableEq, Repr

/-- The operators, longer ones before those that they begin with. -/
def arithmeticOperators : List String :=
  ["<<=", ">>=", "||", "&&", "==", "!=", "<=", ">=", "<<", ">>", "*=", "/=", "%=", "+=", "-=",
    "&=", "^=", "|=", "=", "<", ">", "|", "&", "!", "(", ")", "*", "/", "%", "+", "-", "~", "?",
    ":", "^"]

def arithmeticTokens : (fuel : Nat) → List Char → List ArithmeticToken
  | 0, _ => []
  | _ + 1, [] => []
  | fuel + 1, c :: cs =>
    if c = ' ' ∨ c = '\t' ∨ c = '\n' then arithmeticTokens fuel cs
    else if c.isDigit then
      let (value, rest) := unsignedNumber (c :: cs)
      .number (Int64.ofInt (min (value : Int) largest)) :: arithmeticTokens fuel rest
    else if startsName c then
      let name := (c :: cs).takeWhile continuesName
      .name (String.ofList name) :: arithmeticTokens fuel ((c :: cs).drop name.length)
    else match arithmeticOperators.find? fun o => o.toList.isPrefixOf (c :: cs) with
      | some o => .operator o :: arithmeticTokens fuel ((c :: cs).drop o.length)
      | none => [.other]

/-- How tightly an operator binds, zero being the tightest. -/
def bindingOf? : String → Option Nat
  | "*" | "/" | "%" => some 0
  | "+" | "-" => some 1
  | "<<" | ">>" => some 2
  | "<" | "<=" | ">" | ">=" => some 3
  | "==" | "!=" => some 4
  | "&" => some 5
  | "^" => some 6
  | "|" => some 7
  | _ => none

/-- The operator before the equals sign of an assignment. -/
def assignmentOf? : String → Option String
  | "=" => some ""
  | "*=" => some "*"
  | "/=" => some "/"
  | "%=" => some "%"
  | "+=" => some "+"
  | "-=" => some "-"
  | "<<=" => some "<<"
  | ">>=" => some ">>"
  | "&=" => some "&"
  | "^=" => some "^"
  | "|=" => some "|"
  | _ => none

abbrev Tokens := List ArithmeticToken

mutual
def readPrimary (fuel : Nat) (ts : Tokens) : Expression × Tokens :=
  match fuel with
  | 0 => (.faulty none .primary, [])
  | fuel + 1 =>
    match ts with
    | .number n :: ts => (.number n, ts)
    | .name s :: ts => (.variable s, ts)
    | .operator "(" :: ts =>
      let (e, ts) := readAssignment fuel ts
      match ts with
      | .operator ")" :: ts => (e, ts)
      | _ => (.faulty (some e) .closing, [])
    | .operator "+" :: ts => readPrimary fuel ts
    | .operator "-" :: ts => let r := readPrimary fuel ts; (.unary "-" r.1, r.2)
    | .operator "!" :: ts => let r := readPrimary fuel ts; (.unary "!" r.1, r.2)
    | .operator "~" :: ts => let r := readPrimary fuel ts; (.unary "~" r.1, r.2)
    | _ => (.faulty none .primary, [])

/-- Reads operators that bind more tightly than a bound, and what they bind. -/
def readBinaryTail (fuel : Nat) (bound : Nat) (a : Expression) (ts : Tokens) :
    Expression × Tokens :=
  match fuel with
  | 0 => (a, ts)
  | fuel + 1 =>
    match ts with
    | .operator o :: rest =>
      match bindingOf? o with
      | some binding =>
        if binding < bound then
          let (b, rest) := readPrimary fuel rest
          let (b, rest) := readBinaryTail fuel binding b rest
          readBinaryTail fuel bound (.binary o a b) rest
        else (a, ts)
      | none => (a, ts)
    | _ => (a, ts)

def readAnd (fuel : Nat) (ts : Tokens) : Expression × Tokens :=
  match fuel with
  | 0 => (.faulty none .primary, [])
  | fuel + 1 =>
    let (a, ts) := readPrimary fuel ts
    let (a, ts) := readBinaryTail fuel 8 a ts
    match ts with
    | .operator "&&" :: ts => let r := readAnd fuel ts; (.both a r.1, r.2)
    | ts => (a, ts)

def readOr (fuel : Nat) (ts : Tokens) : Expression × Tokens :=
  match fuel with
  | 0 => (.faulty none .primary, [])
  | fuel + 1 =>
    let (a, ts) := readAnd fuel ts
    match ts with
    | .operator "||" :: ts => let r := readOr fuel ts; (.either a r.1, r.2)
    | ts => (a, ts)

def readChoice (fuel : Nat) (ts : Tokens) : Expression × Tokens :=
  match fuel with
  | 0 => (.faulty none .primary, [])
  | fuel + 1 =>
    let (test, ts) := readOr fuel ts
    match ts with
    | .operator "?" :: ts =>
      let (a, ts) := readAssignment fuel ts
      match ts with
      | .operator ":" :: ts => let r := readChoice fuel ts; (.choice test a r.1, r.2)
      | _ => (.choice test a (.faulty none .colon), [])
    | ts => (test, ts)

def readAssignment (fuel : Nat) (ts : Tokens) : Expression × Tokens :=
  match fuel with
  | 0 => (.faulty none .primary, [])
  | fuel + 1 =>
    match ts with
    | .name s :: .operator o :: rest =>
      match assignmentOf? o with
      | some operator => let r := readAssignment fuel rest; (.assign s operator r.1, r.2)
      | none => readChoice fuel ts
    | ts => readChoice fuel ts
end

/-- The expression that a text holds. -/
def expressionOf (s : String) : Expression :=
  let ts := arithmeticTokens (s.length + 1) s.toList
  let (e, rest) := readAssignment (8 * ts.length + 16) ts
  if rest.isEmpty then e else .faulty (some e) .ending

/-! ### Working expressions out -/

def truth (b : Bool) : Int64 := if b then 1 else 0

/-- What an operator makes of two numbers; none if it divides by zero. -/
def applyOperator? (operator : String) (a b : Int64) : Option Int64 :=
  match operator with
  | "*" => some (a * b)
  | "/" => if b = 0 then none else some (a / b)
  | "%" => if b = 0 then none else some (a % b)
  | "+" => some (a + b)
  | "-" => some (a - b)
  | "<<" => some (a <<< b)
  | ">>" => some (a >>> b)
  | "<" => some (truth (a < b))
  | "<=" => some (truth (a ≤ b))
  | ">" => some (truth (b < a))
  | ">=" => some (truth (b ≤ a))
  | "==" => some (truth (a == b))
  | "!=" => some (truth (a != b))
  | "&" => some (a &&& b)
  | "^" => some (a ^^^ b)
  | _ => some (a ||| b)

/-- What is said of a fault in an expression, given its text. -/
def ArithmeticFault.message (text : String) : ArithmeticFault → String
  | .notANumber value => "Illegal number: " ++ value
  | f =>
    let what := match f with
      | .primary => "expecting primary"
      | .closing => "expecting ')'"
      | .colon => "expecting ':'"
      | .ending => "expecting EOF"
      | _ => "division by zero"
    "arithmetic expression: " ++ what ++ ": \"" ++ text ++ "\""

end NotebookTidy.Shell
