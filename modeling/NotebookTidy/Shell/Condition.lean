import NotebookTidy.Shell.Arithmetic
import NotebookTidy.Shell.State

/-! Conditions of the command shell.

A condition is read from left to right. Three arguments with a binary operator in the middle
are a comparison whatever the others look like. -/
namespace NotebookTidy.Shell
open Files

/-! ### Kinds of files -/

inductive FileKind where
  | directory
  | regular (size : Nat) (executable : Bool)
  | device
  | pipe
deriving DecidableEq, Repr

/-- The directories in which a program without a slash in its name is found. -/
def programDirectories : List Location := [[Text.encode "usr", Text.encode "bin"]]

/-- What there is at a path. Programs are where they are looked up, and no other file can
be run. -/
def State.kind? (s : State) (name : String) : Option FileKind :=
  match State.descriptorNamed? name with
  | some d =>
    match s.channel? d with
    | some (_, .file l _ _) => some (.regular (contentAt s.tree l).length false)
    | some (_, .device _ _) => some .device
    | some (_, .directory _) => some .directory
    | some _ => some .pipe
    | none => none
  | none =>
    match s.tree.resolve (State.pathOf name) with
    | .error _ => none
    | .ok l =>
      match s.tree.lookup l with
      | some .directory => some .directory
      | some (.file content) =>
        some (.regular content.length (programDirectories.contains l.dropLast))
      | some (.device _) => some .device
      | some (.link _) | none => none

/-- The directories whose files are taken away by their owners only. -/
def sharedDirectories : List String := ["/tmp", "/var/tmp", "/dev/shm"]

/-- Whether a path is the name of a link. -/
def State.isLink (s : State) (name : String) : Bool :=
  match State.descriptorNamed? name with
  | some d => "/dev/std".isPrefixOf name || (s.channel? d).isSome
  | none => s.tree.isLink (State.pathOf name)

/-- Whether a file is as an operator says. -/
def State.fileTest (s : State) (operator name : String) : Bool :=
  if operator = "-h" ∨ operator = "-L" then s.isLink name
  else match operator, s.kind? name with
    | _, none => false
    | "-f", some (.regular _ _) => true
    | "-d", some .directory => true
    | "-c", some .device => true
    | "-p", some .pipe => true
    | "-s", some (.regular size _) => size != 0
    | "-s", some .directory => true
    | "-x", some (.regular _ executable) => executable
    | "-x", some .directory => true
    | "-k", some .directory =>
      sharedDirectories.any fun d =>
        (s.tree.resolve (State.pathOf d)).toOption == (s.tree.resolve (State.pathOf name)).toOption
    | operator, some _ => ["-e", "-r", "-w", "-O", "-G"].contains operator

/-- What makes a file the one that it is. -/
inductive FileIdentity where
  | pipe (channel : Nat)
  | entry (l : Location)
deriving DecidableEq, Repr

/-- The file at a path. -/
def State.identity? (s : State) (name : String) : Option FileIdentity :=
  match State.descriptorNamed? name with
  | some d =>
    match s.channel? d with
    | some (_, .file l _ _) | some (_, .directory l) => some (.entry l)
    | some (_, .device d _) => some (.entry (deviceLocation d))
    | some (i, _) => some (.pipe i)
    | none => none
  | none =>
    match s.tree.resolve (State.pathOf name) with
    | .ok l => some (.entry l)
    | .error _ => none

/-- Whether two paths name one file. -/
def State.sameFile (s : State) (a b : String) : Bool :=
  match s.identity? a, s.identity? b with
  | some f, some g => f == g
  | _, _ => false

/-- How late a file was written: those of the system come before the devices, which are made
when it starts, and these before those of its users. Files of one age count as written at
the same time. -/
def FileIdentity.age : FileIdentity → Nat
  | .pipe _ => 2
  | .entry l =>
    match l with
    | [] => 1
    | directory :: _ =>
      if directory = Text.encode "tmp" then 2
      else if directory = Text.encode "dev" ∨ directory = Text.encode "proc" then 1
      else 0

/-- Whether one file was written after another one. -/
def State.isNewer (s : State) (a b : String) : Bool :=
  match s.identity? a, s.identity? b with
  | some f, some g => g.age < f.age
  | _, _ => false

/-! ### Reading conditions -/

inductive OperatorKind where
  | unary
  | binary
  | negation
  | conjunction
  | disjunction
  | opening
  | closing
deriving DecidableEq, Repr

def operatorKind? (s : String) : Option OperatorKind :=
  if ["-r", "-w", "-x", "-e", "-f", "-d", "-c", "-b", "-p", "-u", "-g", "-k", "-s", "-t", "-z",
      "-n", "-h", "-O", "-G", "-L", "-S"].contains s then some .unary
  else if ["=", "!=", "<", ">", "-eq", "-ne", "-ge", "-gt", "-le", "-lt", "-nt", "-ot",
      "-ef"].contains s then some .binary
  else match s with
    | "!" => some .negation
    | "-a" => some .conjunction
    | "-o" => some .disjunction
    | "(" => some .opening
    | ")" => some .closing
    | _ => none

/-- What an argument is taken for. -/
inductive Role where
  | ending
  | operand
  | operator (kind : OperatorKind)
deriving DecidableEq, Repr

/-- Whether nothing follows the argument at a place, or a binary operator and one thing
more. -/
def standsAlone (args : Array String) (i : Nat) : Bool :=
  match args[i + 1]?, args[i + 2]? with
  | none, _ => true
  | some _, none => false
  | some t, some _ => operatorKind? t == some .binary

/-- What the argument at a place is taken for. A unary operator may be an operand. -/
def roleAt (args : Array String) (i : Nat) : Role :=
  match args[i]? with
  | none => .ending
  | some s =>
    match operatorKind? s with
    | none => .operand
    | some .unary => if standsAlone args i then .operand else .operator .unary
    | some .opening => if args[i + 1]?.isNone then .operand else .operator .opening
    | some kind => .operator kind

/-- A number of a condition. -/
def conditionNumber (s : String) : Except String Int :=
  match integerText? false s with
  | some n => .ok n
  | none => .error ("Illegal number: " ++ s)

def State.unaryTest (s : State) (operator arg : String) : Except String Bool :=
  match operator with
  | "-z" => .ok (arg == "")
  | "-n" => .ok (arg != "")
  | "-t" => do
    let _ ← conditionNumber arg
    return false
  | _ => .ok (s.fileTest operator arg)

def State.binaryTest (s : State) (operator a b : String) : Except String Bool :=
  match operator with
  | "=" => .ok (a == b)
  | "!=" => .ok (a != b)
  | "<" => .ok (!comesBefore b.toList a.toList)
  | ">" => .ok (!comesBefore a.toList b.toList)
  | "-ef" => .ok (s.sameFile a b)
  | "-nt" => .ok (s.isNewer a b)
  | "-ot" => .ok (s.isNewer b a)
  | _ => do
    let m ← conditionNumber a
    let n ← conditionNumber b
    return match operator with
      | "-eq" => m == n
      | "-ne" => m != n
      | "-lt" => decide (m < n)
      | "-le" => decide (m ≤ n)
      | "-gt" => decide (n < m)
      | _ => decide (n ≤ m)

section Conditions
variable (s : State) (args : Array String)

mutual
/-- Works out a disjunction whose first argument is at a place and has a role. Gives the
place of the last argument that belongs to it. -/
def disjunction (fuel : Nat) (i : Nat) (r : Role) : Except String (Bool × Nat) :=
  match fuel with
  | 0 => .ok (false, i)
  | fuel + 1 => do
    let (a, i) ← conjunction fuel i r
    if roleAt args (i + 1) = .operator .disjunction then
      let (b, i) ← disjunction fuel (i + 2) (roleAt args (i + 2))
      return (a || b, i)
    else return (a, i)

def conjunction (fuel : Nat) (i : Nat) (r : Role) : Except String (Bool × Nat) :=
  match fuel with
  | 0 => .ok (false, i)
  | fuel + 1 => do
    let (a, i) ← negation fuel i r
    if roleAt args (i + 1) = .operator .conjunction then
      let (b, i) ← conjunction fuel (i + 2) (roleAt args (i + 2))
      return (a && b, i)
    else return (a, i)

def negation (fuel : Nat) (i : Nat) (r : Role) : Except String (Bool × Nat) :=
  match fuel with
  | 0 => .ok (false, i)
  | fuel + 1 => do
    if r = .operator .negation then
      let next := roleAt args (i + 1)
      let (a, i) ← negation fuel (if next = .ending then i else i + 1) next
      return (!a, i)
    else comparison fuel i r

def comparison (fuel : Nat) (i : Nat) (r : Role) : Except String (Bool × Nat) :=
  match fuel with
  | 0 => .ok (false, i)
  | fuel + 1 => do
    let here := args[i]?.getD ""
    match r with
    | .ending => return (false, i)
    | .operator .opening =>
      let next := roleAt args (i + 1)
      if next = .operator .closing then return (false, i + 1)
      let (a, i) ← disjunction fuel (i + 1) next
      if roleAt args (i + 1) = .operator .closing then return (a, i + 1)
      else throw "closing paren expected"
    | .operator .unary =>
      match args[i + 1]? with
      | none => throw (here ++ ": argument expected")
      | some arg => return (← s.unaryTest here arg, i + 1)
    | _ =>
      if roleAt args (i + 1) = .operator .binary then
        let operator := args[i + 1]?.getD ""
        match args[i + 2]? with
        | none => throw (operator ++ ": argument expected")
        | some b => return (← s.binaryTest operator here b, i + 2)
      else return (here != "", i)
end

end Conditions

/-- Whether a condition holds that is read from its start. Nothing may be left over. -/
def State.readCondition (s : State) (args : List String) (r : Role) : Except String Bool := do
  let a := args.toArray
  let (holds, i) ← disjunction s a (4 * args.length + 8) 0 r
  if (a[i + 1]?).isSome then
    let last := a[i]?.getD ""
    throw ((if last = "" then "" else last ++ ": ") ++ "unexpected operator")
  return holds

/-- Whether a condition of a few arguments holds. A negation in front of it may stand there
several times, and counts once. -/
def State.shortCondition (s : State) (negated : Bool) : (args : List String) → Except String Bool
  | [] => .ok negated
  | [a, b, c] =>
    if operatorKind? b = some .binary then finish (s.readCondition [a, b, c] .operand)
    else if a = "(" ∧ c = ")" then finish (s.readCondition [b] (roleAt #[b] 0))
    else if a = "!" then s.shortCondition true [b, c]
    else finish (s.readCondition [a, b, c] (roleAt #[a, b, c] 0))
  | [a, b, c, d] =>
    if a = "(" ∧ d = ")" then finish (s.readCondition [b, c] (roleAt #[b, c] 0))
    else if a = "!" then s.shortCondition true [b, c, d]
    else finish (s.readCondition [a, b, c, d] (roleAt #[a, b, c, d] 0))
  | args => finish (s.readCondition args (roleAt args.toArray 0))
where
  finish (r : Except String Bool) : Except String Bool := r.map (· != negated)

/-- Whether a condition holds; an error says what is wrong with it. -/
def State.condition (s : State) (args : List String) : Except String Bool :=
  s.shortCondition false args

end NotebookTidy.Shell
