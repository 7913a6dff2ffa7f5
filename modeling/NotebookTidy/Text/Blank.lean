/-! Blank characters and the trimming of text.

A character is blank when it has the Unicode property White_Space. Code that holds
blank characters only counts as no code, and what a formatter writes to its error
stream is shown without the blanks around it. -/
namespace NotebookTidy.Text

/-- The code points with the property White_Space, as inclusive ranges. -/
def blankRanges : List (Nat × Nat) :=
  [(0x09, 0x0d), (0x20, 0x20), (0x85, 0x85), (0xa0, 0xa0), (0x1680, 0x1680), (0x2000, 0x200a),
    (0x2028, 0x2029), (0x202f, 0x202f), (0x205f, 0x205f), (0x3000, 0x3000)]

def isBlank (c : Char) : Bool :=
  blankRanges.any fun r => r.1 ≤ c.toNat && c.toNat ≤ r.2

/-- No character but blank ones; the empty text included. -/
def allBlank (s : String) : Bool :=
  s.toList.all isBlank

/-- Removes what satisfies `p` at the end. -/
def dropEndWhile (p : Char → Bool) (cs : List Char) : List Char :=
  (cs.reverse.dropWhile p).reverse

/-- Removes the blanks at both ends. -/
def trimBlank (s : String) : String :=
  String.ofList (dropEndWhile isBlank (s.toList.dropWhile isBlank))

/-- Removes the newlines at the end, and no other blanks. -/
def trimEndNewlines (s : String) : String :=
  String.ofList (dropEndWhile (· == '\n') s.toList)

end NotebookTidy.Text
