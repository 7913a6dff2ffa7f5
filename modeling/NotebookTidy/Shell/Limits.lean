import NotebookTidy.Shell.Action

/-! What processes may do, and the time they have taken. -/
namespace NotebookTidy.Shell

/-! ### Permissions -/

/-- A digit of permissions that are held back, by the letters of the others. -/
def permissionLetters (n : Nat) : String :=
  String.ofList ([('r', 4), ('w', 2), ('x', 1)].filterMap fun (c, bit) =>
    if n / bit % 2 = 0 then some c else none)

/-- Those whose permissions are meant, as bits: the owner, the group and the others. -/
def ownersOf (cs : List Char) : List Nat :=
  [('u', 6), ('g', 3), ('o', 0)].filterMap fun (c, place) =>
    if cs.contains c || cs.contains 'a' then some place else none

/-- The digit of permissions that letters stand for, given the permissions there are. -/
def permissionsOf (granted : Nat) (cs : List Char) : Nat :=
  cs.foldl (fun n c => n ||| (match c with
    | 'r' => 4
    | 'w' => 2
    | 'x' => 1
    | 'u' => granted / 64 % 8
    | 'g' => granted / 8 % 8
    | 'o' => granted % 8
    | 'X' => if granted &&& 0o111 = 0 then 0 else 1
    | _ => 0)) 0

/-- Changes permissions as letters say, clause by clause; none if they say nothing. The
letters for those who are meant count for all operators of a clause. -/
def changedPermissions (before : Nat) : (fuel : Nat) → (owners : List Nat) → (now : Nat) →
    List Char → Option Nat
  | 0, _, _, _ => none
  | _ + 1, _, now, [] => some now
  | fuel + 1, owners, now, cs =>
    let named := cs.takeWhile fun c => ['a', 'u', 'g', 'o'].contains c
    let owners := owners ++ ownersOf named
    let owners := if owners.isEmpty then [6, 3, 0] else owners
    match cs.drop named.length with
    | [] => some now
    | operator :: rest =>
      if !(['=', '+', '-'].contains operator) then none
      else
        let letters := rest.takeWhile fun c =>
          ['r', 'w', 'x', 'u', 'g', 'o', 'X', 's'].contains c
        let digit := permissionsOf before letters
        let spread (n : Nat) := owners.foldl (fun m place => m ||| n <<< place) 0
        let all := spread 7
        let without (m n : Nat) := m ^^^ (m &&& n)
        let now := match operator with
          | '-' => without now (spread digit)
          | '=' => spread digit ||| without now all
          | _ => now ||| spread digit
        match rest.drop letters.length with
        | ',' :: rest => changedPermissions before fuel [] now rest
        | [] => some now
        | rest => changedPermissions before fuel owners now rest

/-- Shows the permissions that new files are not given, or changes them. -/
def changeMask (args : List String) : Act Nat := do
  let (given, args) ← Act.options ['S'] args
  let mask := (← get).mask
  match args with
  | [] =>
    let digits := [mask / 64 % 8, mask / 8 % 8, mask % 8]
    let text :=
      if given.isEmpty then "0" ++ String.join (digits.map toString)
      else ",".intercalate (["u=", "g=", "o="].zipWith (fun who n => who ++ permissionLetters n)
        digits)
    Act.printText "umask" (text ++ "\n")
  | arg :: _ =>
    let cs := arg.toList
    let changed : Except String Nat :=
      if cs.head?.any Char.isDigit then
        let (n, rest) := digitsFrom 8 0 cs
        if rest.isEmpty then .ok (n % 512) else .error ("Illegal number: " ++ arg)
      else match changedPermissions (511 - mask) (cs.length + 1) [] (511 - mask) cs with
        | some granted => .ok (511 - granted)
        | none => .error ("Illegal mode: " ++ arg)
    match changed with
    | .ok mask => modify fun s => { s with mask := mask }; return 0
    | .error what => Act.fail what

/-! ### Limits -/

/-- A limit: the letter of its option, what it is called, how many of its units are shown as
one, and what it is before it is changed, also up to where it can be raised. -/
structure Limit where
  letter : Char
  name : String
  unit : Nat
  soft : Option Nat
  hard : Option Nat

def limits : List Limit :=
  [⟨'t', "time(seconds)", 1, none, none⟩, ⟨'f', "file(blocks)", 512, none, none⟩,
    ⟨'d', "data(kbytes)", 1024, none, none⟩,
    ⟨'s', "stack(kbytes)", 1024, some (8192 * 1024), none⟩,
    ⟨'c', "coredump(blocks)", 512, some 0, none⟩, ⟨'m', "memory(kbytes)", 1024, none, none⟩,
    ⟨'l', "locked memory(kbytes)", 1024, some (8192 * 1024), some (8192 * 1024)⟩,
    ⟨'p', "process", 1, none, none⟩, ⟨'n', "nofiles", 1, some 1048576, some 1048576⟩,
    ⟨'v', "vmemory(kbytes)", 1024, none, none⟩, ⟨'w', "locks", 1, none, none⟩,
    ⟨'r', "rtprio", 1, some 0, some 0⟩]

/-- A limit as it is now. -/
def State.limit (s : State) (l : Limit) : Option Nat × Option Nat :=
  match s.limits.find? (·.1 == l.letter) with
  | some (_, now) => now
  | none => (l.soft, l.hard)

def limitText (l : Limit) (value : Option Nat) : String :=
  match value with
  | none => "unlimited\n"
  | some n => toString (n / l.unit) ++ "\n"

/-- Whether one limit is no higher than another. -/
def withinLimit (a b : Option Nat) : Bool :=
  match a, b with
  | _, none => true
  | none, some _ => false
  | some m, some n => m ≤ n

/-- The limit that an argument stands for. Numbers have 64 bits, and the largest of them is
no limit. -/
def limitOf (l : Limit) (arg : String) : Act (Option Nat) := do
  if arg = "unlimited" then return none
  let (n, rest) := digitsFrom 10 0 arg.toList
  if !rest.isEmpty then Act.fail "bad number"
  let n := n * l.unit % 18446744073709551616
  return if n = 18446744073709551615 then none else some n

def changeLimit (args : List String) : Act Nat := do
  let (given, args) ← Act.options (['H', 'S', 'a'] ++ limits.map Limit.letter) args
  let kinds := given.filter fun c => c == 'H' || c == 'S'
  let soft := kinds.getLast? != some 'H'
  let hard := kinds.getLast? != some 'S'
  let all := given.contains 'a'
  let letter := ((given.filter fun c => !(['H', 'S', 'a'].contains c)).getLast?).getD 'f'
  let shown (s : State) (l : Limit) : String :=
    limitText l (if soft then (s.limit l).1 else (s.limit l).2)
  match args, limits.find? (·.letter == letter) with
  | arg :: more, some l =>
    if all || !more.isEmpty then Act.fail "too many arguments"
    let value ← limitOf l arg
    let s ← get
    let (oldSoft, oldHard) := s.limit l
    let newSoft := if soft then value else oldSoft
    let newHard := if hard then value else oldHard
    if !withinLimit newSoft newHard then Act.fail "error setting limit (Invalid argument)"
    if !withinLimit newHard oldHard then
      Act.fail "error setting limit (Operation not permitted)"
    set { s with limits := (l.letter, newSoft, newHard) :: s.limits }
    return 0
  | [], some l =>
    let s ← get
    if all then
      Act.printText "ulimit" (String.join (limits.map fun l =>
        l.name ++ String.ofList (List.replicate (20 - l.name.length) ' ') ++ " " ++ shown s l))
    else Act.printText "ulimit" (shown s l)
  | _, none => return 0

/-! ### Time -/

/-- Shows the time that the shell and the processes it has started have taken, which is next
to nothing. -/
def showTimes : Act Nat :=
  Act.printText "times" "0m0.000000s 0m0.000000s\n0m0.000000s 0m0.000000s\n"

end NotebookTidy.Shell
