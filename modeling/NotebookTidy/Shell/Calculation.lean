import NotebookTidy.Shell.Process

/-! Working out integer expressions.

What an expression does to variables is done in the order in which it is worked out, so that
it stays done when a fault is found after it. Parts that do not count are gone through for
their faults only. -/
namespace NotebookTidy.Shell

section Calculation
variable (text : String)

/-- Ends in a fault of the expression. -/
def Act.faultIn {α : Type} (f : ArithmeticFault) : Act α := Act.fail (f.message text)

/-- The value of a variable, zero if it is not set. -/
def variableNumber (name : String) : Act Int64 := do
  match (← get).value? name with
  | none => return 0
  | some value =>
    match integerText? true value with
    | some n => return Int64.ofInt n
    | none => Act.faultIn text (.notANumber value)

/-- What an operator makes of two numbers. The one quotient that is no number of 64 bits ends
the process. -/
def combine (operator : String) (m n : Int64) : Act Int64 := do
  if (operator = "/" ∨ operator = "%") ∧ n = -1 ∧ m = Int64.ofInt smallest then
    modify fun s => { s with flow := .killed signalArithmetic }
    failure
  match applyOperator? operator m n with
  | some r => return r
  | none => Act.faultIn text .zeroDivisor

/-- The value of an expression, which counts if it is live. -/
def Expression.workOut (live : Bool) : Expression → Act Int64
  | .number n => return n
  | .variable name => if live then variableNumber text name else return 0
  | .unary operator e => do
    let n ← e.workOut live
    return if operator = "-" then -n else if operator = "!" then truth (n == 0) else ~~~n
  | .binary operator a b => do
    let m ← a.workOut live
    let n ← b.workOut live
    if live then combine text operator m n else return n
  | .both a b => do
    let m ← a.workOut live
    let n ← b.workOut (live && m != 0)
    return truth (m != 0 && n != 0)
  | .either a b => do
    let m ← a.workOut live
    let n ← b.workOut (live && m == 0)
    return truth (m != 0 || n != 0)
  | .choice test a b => do
    let t ← test.workOut live
    let m ← a.workOut (live && t != 0)
    let n ← b.workOut (live && t == 0)
    return if t != 0 then m else n
  | .assign name operator e => do
    let n ← e.workOut live
    if !live then return n
    let r ← if operator = "" then pure n
      else do combine text operator (← variableNumber text name) n
    Act.assign name (toString r)
    return r
  | .faulty none f => Act.faultIn text f
  | .faulty (some e) f => do
    let _ ← e.workOut live
    Act.faultIn text f

end Calculation

/-- The value of an expression, given its text. -/
def calculate (text : String) : Act String := do
  return toString (← (expressionOf text).workOut text true)

end NotebookTidy.Shell
