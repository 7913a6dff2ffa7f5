import NotebookTidy.Shell.Options

/-! Writing bytes out with marks for what cannot be seen.

Lines are counted across all inputs, and a line that one input does not end goes on in the
next one. -/
namespace NotebookTidy.Shell

structure Display where
  numbers : Bool
  /-- Empty lines are not counted. -/
  nonemptyOnly : Bool
  ends : Bool
  tabs : Bool
  nonprinting : Bool
  /-- Of several empty lines only one is left. -/
  squeezes : Bool
deriving DecidableEq, Repr

namespace Display

def optionTable : OptionTable where
  letters := ['A', 'b', 'e', 'E', 'n', 's', 't', 'T', 'u', 'v']
  words := [("number-nonblank", 'b'), ("number", 'n'), ("squeeze-blank", 's'),
    ("show-nonprinting", 'v'), ("show-ends", 'E'), ("show-tabs", 'T'), ("show-all", 'A')]
  anywhere := true

def ofLetters (cs : List Char) : Display where
  numbers := cs.contains 'n' || cs.contains 'b'
  nonemptyOnly := cs.contains 'b'
  ends := cs.any fun c => c == 'E' || c == 'e' || c == 'A'
  tabs := cs.any fun c => c == 'T' || c == 't' || c == 'A'
  nonprinting := cs.any fun c => c == 'v' || c == 'e' || c == 't' || c == 'A'
  squeezes := cs.contains 's'

/-- Nothing is changed. -/
def isPlain (d : Display) : Bool :=
  !(d.numbers || d.ends || d.tabs || d.nonprinting || d.squeezes)

/-- A byte below 128 that is not printed, as a letter after a caret. -/
def caret (b : UInt8) : Bytes := [94, if b = 127 then 63 else b + 64]

/-- A byte of a line, but for its end. -/
def byte (d : Display) (b : UInt8) : Bytes :=
  if b = 9 then (if d.tabs then caret b else [b])
  else if !d.nonprinting then [b]
  else if b < 32 ∨ b = 127 then caret b
  else if b < 128 then [b]
  else
    let low := b - 128
    [77, 45] ++ if low < 32 ∨ low = 127 then caret low else [low]

/-- The number of a line. -/
def lineNumber (n : Nat) : Bytes :=
  let digits := (Nat.toDigits 10 n).map fun c => UInt8.ofNat c.toNat
  List.replicate (6 - digits.length) 32 ++ digits ++ [9]

end Display

/-- Where the output stands: how many lines were counted, and how many newlines came last,
up to two more than the one that ends a line. There are none within a line. -/
structure Position where
  lines : Nat
  /-- No line has begun since the last newline. -/
  fresh : Bool
  /-- How many empty lines came last, up to two. -/
  empty : Nat
  /-- A carriage return that may be the end of a line. -/
  pending : Bool
deriving DecidableEq, Repr

def Position.start : Position := ⟨0, true, 0, false⟩

/-- Writes a byte out. -/
def Display.step (d : Display) (p : Position) (b : UInt8) : Bytes × Position :=
  if b = 10 then
    let held : Bytes := if p.pending then Display.caret 13 else []
    let stop : Bytes := (if d.ends then [36] else []) ++ [10]
    if !p.fresh then (held ++ stop, { p with fresh := true, empty := 0, pending := false })
    else
      let empty := min 2 (p.empty + 1)
      if d.squeezes && empty == 2 then ([], { p with empty := empty })
      else if d.numbers && !d.nonemptyOnly then
        (Display.lineNumber (p.lines + 1) ++ stop, { p with lines := p.lines + 1, empty := empty })
      else (stop, { p with empty := empty })
  else
    let held : Bytes := if p.pending then [13] else []
    let (number, lines) : Bytes × Nat :=
      if p.fresh && d.numbers then (Display.lineNumber (p.lines + 1), p.lines + 1)
      else ([], p.lines)
    let p : Position := ⟨lines, false, 0, false⟩
    if b = 13 ∧ d.ends ∧ !d.nonprinting then (held ++ number, { p with pending := true })
    else (held ++ number ++ d.byte b, p)

/-- Writes bytes out. -/
def Display.show (d : Display) (p : Position) (bytes : Bytes) : Bytes × Position :=
  if d.isPlain then (bytes, p)
  else
    let (out, p) := bytes.foldl
      (fun (acc : List Bytes × Position) b =>
        let (out, p) := d.step acc.2 b
        (out :: acc.1, p))
      ([], p)
    (out.reverse.flatten, p)

/-- What is still to be written at the end. -/
def Position.rest (p : Position) : Bytes := if p.pending then [13] else []

end NotebookTidy.Shell
