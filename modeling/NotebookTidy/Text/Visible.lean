/-! What a terminal shows of a text.

Control characters ring the bell or move the cursor, and an escape character begins a
sequence that sets a colour or a title. They are taken out, and what is left can be read.
White space is left where it is, also inside a sequence, where it makes the characters
after it visible again. -/
namespace NotebookTidy.Text

/-- Where in a control sequence a character stands. -/
inductive Steering where
  /-- Outside of any sequence. -/
  | none
  /-- After an escape character. -/
  | escape
  | escapeMore
  /-- In a sequence that begins with a bracket: before, in and after its parameters. -/
  | control
  | controlParameters
  | controlMore
  | controlIgnored
  /-- In a device control string: before, in and after its parameters, and in its text. -/
  | device
  | deviceParameters
  | deviceMore
  | deviceText
  /-- In a text for the terminal, such as a title. -/
  | command
  /-- In a text for an application. -/
  | message
deriving DecidableEq, Repr

namespace Steering

/-- White space takes effect here, and so is seen. -/
def showsSpace : Steering → Bool
  | .device | .deviceParameters | .deviceMore | .deviceText | .command | .message => false
  | _ => true

/-- The place after a control character. -/
def afterControl (s : Steering) (c : Char) : Steering :=
  if c = '\x18' ∨ c = '\x1a' then .none
  else if c = '\x1b' then .escape
  else if c = '\x07' ∧ s = .command then .none
  else s

/-- The place after a character between the space and the slash. -/
def afterIntermediate : Steering → Steering
  | .escape => .escapeMore
  | .control | .controlParameters => .controlMore
  | .device | .deviceParameters => .deviceMore
  | s => s

/-- The place after a digit, or one of the characters up to the question mark. -/
def afterParameter (s : Steering) (c : Char) : Steering :=
  match s with
  | .escape | .escapeMore => .none
  | .control => .controlParameters
  | .controlParameters => if c < '<' then .controlParameters else .controlIgnored
  | .controlMore => .controlIgnored
  | .device => .deviceParameters
  | .deviceParameters => if c < '<' then .deviceParameters else .deviceText
  | .deviceMore => .deviceText
  | s => s

/-- The place after a letter, or a sign among the letters. -/
def afterFinal (s : Steering) (c : Char) : Steering :=
  match s with
  | .escape =>
    if c = '[' then .control
    else if c = ']' then .command
    else if c = 'P' then .device
    else if c = 'X' ∨ c = '^' ∨ c = '_' then .message
    else .none
  | .device | .deviceParameters | .deviceMore | .deviceText => .deviceText
  | .command => .command
  | .message => .message
  | _ => .none

/-- Whether a character beyond ASCII ends a string: one whose encoding holds the byte
that stands for the end of a string in eight-bit codes. -/
def endsString (c : Char) : Bool := (String.utf8EncodeChar c).contains 0x9c

/-- The place after a character. -/
def after (s : Steering) (c : Char) : Steering :=
  if c < ' ' then s.afterControl c
  else if c < '0' then s.afterIntermediate
  else if c < '@' then s.afterParameter c
  else if c < '\x7f' then s.afterFinal c
  else match s with
    | .deviceText | .message => if endsString c then .none else s
    | s => s

end Steering

def isSpace (c : Char) : Bool :=
  c == '\t' || c == '\n' || c == '\x0c' || c == '\r'

/-- The characters that are seen. `shown` says whether the one before was; if so, what
the characters do to the terminal does not matter until one of them is not seen. -/
def visibleFrom (s : Steering) (shown : Bool) : List Char → List Char
  | [] => []
  | c :: cs =>
    let plain := ' ' ≤ c && c != '\x7f'
    if (shown || s == .none) && plain then
      c :: visibleFrom (if c < '\x7f' then s else .none) true cs
    else if isSpace c && (shown || s.showsSpace) then c :: visibleFrom s true cs
    else visibleFrom (s.after c) false cs

def visible (s : String) : String := String.ofList (visibleFrom .none false s.toList)

end NotebookTidy.Text
