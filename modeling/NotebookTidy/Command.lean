import NotebookTidy.Files.Tree

/-! External programs.

What a program does is not part of this library. A `Runner` stands for it: it says what
comes of starting a command among some files, which the program may change. -/
namespace NotebookTidy
open Files

/-- A program and the arguments it is started with. -/
structure Command where
  program : String
  args : List String
deriving DecidableEq, Repr

/-- What a program is connected to: nothing at all, or pipes, one of which brings it its
input. -/
inductive Streams where
  | nothing
  | pipes (input : Bytes)
deriving DecidableEq

/-- What comes of starting a command. The input goes in while the output comes out, so
a program that ran may also have refused part of its input. -/
inductive Outcome where
  | notStarted (e : IoError)
  | finished (status : Nat) (stdout stderr : Bytes) (inputError : Option IoError)
deriving DecidableEq

/-- What comes of starting a command, and the files after it. -/
abbrev Runner := Command → Streams → Tree → Outcome × Tree

end NotebookTidy
