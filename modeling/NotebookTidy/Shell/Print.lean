import NotebookTidy.Shell.Floating

/-! The commands that print their arguments. -/
namespace NotebookTidy.Shell

/-! ### Plain arguments -/

/-- The character of an escape after its backslash, and what follows it. A backslash that
begins none stands for itself. -/
def escape (s : List Char) : Char × List Char :=
  match octal? 3 s, s with
  | some (n, rest), _ => (octetOf n, rest)
  | none, c :: rest =>
    match control? c with
    | some d => (d, rest)
    | none => ('\\', s)
  | none, [] => ('\\', [])

/-- Text with its escapes made out, up to one that asks to stop; and whether one did. Octal
digits may have a zero in front. -/
def unescapedFrom : (fuel : Nat) → List Char → List Char × Bool
  | 0, _ => ([], false)
  | _ + 1, [] => ([], false)
  | _ + 1, '\\' :: 'c' :: _ => ([], true)
  | fuel + 1, '\\' :: s =>
    let s := match s with
      | '0' :: rest => if (octal? 1 rest).isSome then rest else s
      | s => s
    let (c, s) := escape s
    let r := unescapedFrom fuel s
    (c :: r.1, r.2)
  | fuel + 1, c :: s => let r := unescapedFrom fuel s; (c :: r.1, r.2)

def unescaped (s : List Char) : List Char × Bool := unescapedFrom (s.length + 1) s

/-- Prints arguments with blanks between them, and a newline unless the first one
is `-n`. -/
def echo (args : List String) : List Char :=
  let (newline, args) := match args with
    | "-n" :: args => (false, args)
    | args => (true, args)
  let (out, stopped) := unescaped (" ".intercalate args).toList
  if newline && !stopped then out ++ ['\n'] else out

/-! ### Formats -/

/-- A width or a precision: as it is written, or to be taken from the arguments. -/
inductive Count where
  | given (n : Nat)
  | argument
deriving DecidableEq, Repr

/-- How a value is to be printed. -/
structure Directive where
  flags : List Char
  width : Option Count
  precision : Option Count
  /-- A star where there cannot be one, and what stands between it and the conversion. The
  directive takes its arguments, but is only written out again. -/
  strayed : Option (List Char)
  conversion : Char
deriving DecidableEq, Repr

/-- A part of a format. -/
inductive FormatPart where
  | char (c : Char)
  | value (d : Directive)
  /-- Something that cannot be printed, and what is said of it after its counts have been
  taken. -/
  | faulty (width precision : Option Count) (what : String)
deriving DecidableEq, Repr

/-- Reads a width or a precision, and the stars and digits that follow its digits. -/
def readCount (s : List Char) : Option Count × List Char × List Char :=
  match s with
  | '*' :: rest => (some .argument, [], rest)
  | s =>
    let run := s.takeWhile fun c => c.isDigit || c == '*'
    let digits := run.takeWhile Char.isDigit
    (if digits.isEmpty then none else some (.given (digitsFrom 10 0 digits).1),
      run.drop digits.length, s.drop run.length)

def floatingConversions : List Char := ['a', 'A', 'e', 'E', 'f', 'F', 'g', 'G']

def conversions : List Char :=
  ['b', 'c', 's', 'd', 'i', 'o', 'u', 'x', 'X'] ++ floatingConversions

def formatParts : (fuel : Nat) → List Char → List FormatPart
  | 0, _ => []
  | _ + 1, [] => []
  | fuel + 1, '\\' :: s =>
    let (c, rest) := escape s
    .char c :: formatParts fuel rest
  | fuel + 1, '%' :: '%' :: s => .char '%' :: formatParts fuel s
  | fuel + 1, '%' :: s =>
    let flags := s.takeWhile fun c => c == '#' || c == '-' || c == '+' || c == ' ' || c == '0'
    let (width, first, afterWidth) := readCount (s.drop flags.length)
    let (precision, second, rest) := match afterWidth with
      | '.' :: rest => let r := readCount rest; (some (r.1.getD (.given 0)), r.2)
      | rest => (none, [], rest)
    match rest with
    | [] => [.faulty width precision "missing format character"]
    | c :: after =>
      if conversions.contains c then
        let between := afterWidth.take (afterWidth.length - rest.length)
        let strayed :=
          if !first.isEmpty then some (first ++ between)
          else if !second.isEmpty then some second
          else none
        .value ⟨flags, width, precision, strayed, c⟩ :: formatParts fuel after
      else
        let text := s.take (s.length - after.length)
        [.faulty width precision ("%" ++ String.ofList text ++ ": invalid directive")]
  | fuel + 1, c :: s => .char c :: formatParts fuel s

/-! ### Values -/

/-- What was printed, and what was said about it on the way. -/
structure Printed where
  out : List Char
  complaints : List String
  /-- What ended the printing early, if it was a fault. -/
  fault : Option String
  stopped : Bool

/-- Puts blanks before a text, or behind it. -/
def justify (left : Bool) (width : Nat) (cs : List Char) : List Char :=
  let blanks := List.replicate (width - cs.length) ' '
  if left then cs ++ blanks else blanks ++ cs

/-- The number that an argument stands for, with a complaint if it is none; numbers out of
the range are moved to its ends. A quote asks for the character after it. -/
def integerArgument (signed : Bool) (arg : String) : Int × Option String :=
  match arg.toList with
  | [] => (0, none)
  | '"' :: cs | '\'' :: cs => (((cs.head?.map Char.toNat).getD 0 : Nat), none)
  | cs =>
    let s := cs.dropWhile isSpace
    let (negative, digits) := afterSign s
    if !digits.head?.any Char.isDigit then (0, some (arg ++ ": expected numeric value"))
    else
      let (value, rest) := unsignedNumber digits
      let (low, high) : Int × Int :=
        if signed then (smallest, largest) else (-(2 * largest + 1), 2 * largest + 1)
      let exact : Int := if negative then -(value : Int) else (value : Int)
      let inRange := low ≤ exact ∧ exact ≤ high
      let kept := if inRange then exact
        else if signed then (if negative then low else high) else high
      (kept, if !rest.isEmpty then some (arg ++ ": not completely converted")
        else if inRange then none else some (arg ++ ": Numerical result out of range"))

/-- The digits of a number, with its sign or mark in front. -/
def integerText (flags : List Char) (width : Nat) (precision : Option Nat) (conversion : Char)
    (n : Int) : List Char :=
  let unsigned : Nat := (n % (2 * largest + 2)).toNat
  let digits := match conversion with
    | 'o' => Nat.toDigits 8 unsigned
    | 'x' => Nat.toDigits 16 unsigned
    | 'X' => (Nat.toDigits 16 unsigned).map Char.toUpper
    | 'u' => Nat.toDigits 10 unsigned
    | _ => Nat.toDigits 10 n.natAbs
  let digits := if digits = ['0'] ∧ precision = some 0 then [] else digits
  let digits := List.replicate (precision.getD 0 - digits.length) '0' ++ digits
  let marked := flags.contains '#'
  let digits := if marked ∧ conversion = 'o' ∧ digits.head? ≠ some '0' then '0' :: digits
    else digits
  let sign : List Char :=
    if conversion = 'd' ∨ conversion = 'i' then
      if n < 0 then ['-'] else if flags.contains '+' then ['+']
      else if flags.contains ' ' then [' '] else []
    else if marked ∧ unsigned ≠ 0 ∧ (conversion = 'x' ∨ conversion = 'X') then ['0', conversion]
    else []
  let zeros :=
    if flags.contains '0' ∧ !flags.contains '-' ∧ precision.isNone then
      List.replicate (width - sign.length - digits.length) '0'
    else []
  justify (flags.contains '-') width (sign ++ zeros ++ digits)

/-- Takes a width or a precision from the arguments if it is to come from there. It is kept in
32 bits. -/
def resolveCount (c : Option Count) (args : List String) :
    Option Int × List String × List String :=
  match c with
  | none => (none, args, [])
  | some (.given n) => (some n, args, [])
  | some .argument =>
    match args with
    | [] => (some 0, [], [])
    | a :: args =>
      let (n, complaint) := integerArgument true a
      (some (n.bmod 4294967296), args, complaint.toList)

/-- A directive with a stray star as it is written out: with its flags in order, its counts,
and a letter for the size of integers. -/
def strayedText (d : Directive) (text flags : List Char) (width : Nat)
    (precision : Option Nat) : List Char :=
  let has (c : Char) := flags.contains c
  let sign := if has '+' then ['+'] else if has ' ' then [' '] else []
  let shown := (if has '#' then ['#'] else []) ++ sign ++ (if has '-' then ['-'] else [])
    ++ (if has '0' && !has '-' then ['0'] else [])
  let counted (n : Nat) := (toString n).toList
  let behindPoint := match d.precision, text.contains '.' with
    | some _, false => (precision.map fun p => '.' :: counted p).getD []
    | _, _ => []
  let size := if d.conversion = 'b' then ['s']
    else if d.conversion = 's' ∨ d.conversion = 'c' ∨ floatingConversions.contains d.conversion then
      [d.conversion]
    else ['l', d.conversion]
  '%' :: (shown ++ (if width = 0 then [] else counted width) ++ behindPoint ++ text ++ size)

/-- The largest number of characters that a value may take. -/
def largestCount : Nat := 2147483647

/-- A value in so many characters, with a complaint about the argument, and whether the printing
ends. -/
def valueText (d : Directive) (flags : List Char) (width : Nat) (precision : Option Nat)
    (arg : String) : List Char × Option String × Bool :=
  let cut (cs : List Char) : List Char := match precision with
    | some p => cs.take p
    | none => cs
  let justified (cs : List Char) : List Char := justify (flags.contains '-') width cs
  match d.conversion with
  | 's' => (justified (cut arg.toList), none, false)
  | 'b' => let r := unescaped arg.toList; (justified (cut r.1), none, r.2)
  | 'c' => (justified [arg.toList.head?.getD '\x00'], none, false)
  | c =>
    if floatingConversions.contains c then
      let (x, complaint) := floatingArgument arg
      (justified (floatingText flags width precision c x), complaint, false)
    else
      let (n, complaint) := integerArgument (c = 'd' ∨ c = 'i') arg
      (integerText flags width precision c n, complaint, false)

/-- Prints a value. Arguments that are not there are empty, or zero. -/
def formatValue (d : Directive) (args : List String) : Printed × List String :=
  let (width, args, first) := resolveCount d.width args
  let (precision, args, second) := resolveCount d.precision args
  let width := width.getD 0
  let flags := if width < 0 then '-' :: d.flags else d.flags
  let width := width.natAbs
  let precision := precision.bind fun p => if p < 0 then none else some p.toNat
  let arg := args.head?.getD ""
  if largestCount < width || precision.any (largestCount < ·) then
    let complaint := (valueText d flags 0 none arg).2.1
    (⟨[], first ++ second ++ complaint.toList, some "xvsnprintf failed", true⟩, args.tail)
  else
    let (text, complaint, stopped) := valueText d flags width precision arg
    let text := match d.strayed with
      | some stray => strayedText d stray flags width precision
      | none => text
    (⟨text, first ++ second ++ complaint.toList, none, stopped⟩, args.tail)

/-- Prints a format once. -/
def formatOnce : List FormatPart → List String → Printed × List String
  | [], args => (⟨[], [], none, false⟩, args)
  | .char c :: parts, args =>
    let (p, rest) := formatOnce parts args
    ({ p with out := c :: p.out }, rest)
  | .faulty width precision what :: _, args =>
    let (_, args, first) := resolveCount width args
    let (_, args, second) := resolveCount precision args
    (⟨[], first ++ second, some what, true⟩, args)
  | .value d :: parts, args =>
    let (p, args) := formatValue d args
    if p.stopped then (p, args)
    else
      let (q, rest) := formatOnce parts args
      (⟨p.out ++ q.out, p.complaints ++ q.complaints, q.fault, q.stopped⟩, rest)

/-- Prints a format again as long as that uses up arguments. -/
def formatAll (parts : List FormatPart) : (fuel : Nat) → List String → Printed
  | 0, _ => ⟨[], [], none, false⟩
  | fuel + 1, args =>
    let (p, rest) := formatOnce parts args
    if p.stopped || rest.isEmpty || args.length ≤ rest.length then p
    else
      let q := formatAll parts fuel rest
      ⟨p.out ++ q.out, p.complaints ++ q.complaints, q.fault, q.stopped⟩

/-- Prints arguments by a format. -/
def format (form : String) (args : List String) : Printed :=
  formatAll (formatParts (form.length + 1) form.toList) (args.length + 1) args

end NotebookTidy.Shell
