import NotebookTidy.Shell.Octets

/-! What a script is made of: words, redirections and commands. -/
namespace NotebookTidy.Shell

/-- What is asked of a parameter. -/
inductive Use where
  | value
  | length
  /-- Another word in place of a value that is missing. -/
  | otherwise
  /-- The same, and the word becomes the value. -/
  | assign
  /-- A value that is missing is an error. -/
  | require
  /-- Another word in place of a value that is there. -/
  | alternative
  | trimStart (longest : Bool)
  | trimEnd (longest : Bool)
  /-- The value and then another word, behind which nothing more counts. -/
  | last
  /-- Something that cannot be asked. -/
  | unknown
deriving DecidableEq, Repr

/-- How a file is opened. -/
inductive Access where
  | read
  | write
  /-- For writing, also where no file is to be overwritten. -/
  | overwrite
  | append
  | both
deriving DecidableEq, Repr

mutual
/-- A piece of a word. What is in quotes is neither split nor a pattern. -/
inductive Piece where
  | plain (s : String)
  | quoted (s : String)
  /-- A parameter. `orEmpty` counts an empty value as missing. -/
  | parameter (name : String) (use : Use) (orEmpty : Bool) (word : Word) (quoted : Bool)
  /-- What a command writes. -/
  | output (command : Command) (quoted : Bool)
  /-- The value of an integer expression. -/
  | number (expression : Word) (quoted : Bool)

inductive Word where
  | mk (pieces : List Piece)

inductive Assignment where
  | mk (name : String) (word : Word)

inductive Redirection where
  | file (descriptor : Nat) (access : Access) (name : Word)
  /-- Another descriptor, by the number that a word stands for, or none. -/
  | same (descriptor : Nat) (other : Word)
  /-- The text of a document that stands in the script, by its place among them. -/
  | document (descriptor : Nat) (place : Nat)

inductive Clause where
  | mk (patterns : List Word) (body : Command)

inductive Command where
  | simple (line : Nat) (assignments : List Assignment) (words : List Word)
      (redirections : List Redirection)
  | pipeline (commands : List Command)
  | negation (command : Command)
  | both (first second : Command)
  | either (first second : Command)
  | sequence (commands : List Command)
  | subshell (line : Nat) (body : Command) (redirections : List Redirection)
  | background (body : Command)
  | redirected (line : Nat) (body : Command) (redirections : List Redirection)
  /-- An empty sequence is no second alternative. -/
  | choice (test first second : Command)
  /-- Repeats as long as the test comes out like this. -/
  | loop (wanted : Bool) (test body : Command)
  | each (line : Nat) (name : String) (words : List Word) (body : Command)
  | select (line : Nat) (subject : Word) (clauses : List Clause)
  | define (name : String) (body : Command)
end

instance : Inhabited Command := ⟨.sequence []⟩
instance : Inhabited Word := ⟨.mk []⟩

def Word.pieces : Word → List Piece
  | .mk ps => ps

def Command.isEmpty : Command → Bool
  | .sequence [] => true
  | _ => false

def Piece.isQuoted : Piece → Bool
  | .quoted _ => true
  | _ => false

/-- A word of characters that all stand for themselves. -/
def Word.plain? : Word → Option String
  | .mk [.plain s] => some s
  | _ => none

/-- The characters of a word that has nothing to expand. -/
def Word.text (w : Word) : String :=
  w.pieces.foldl (fun s p => match p with
    | .plain t | .quoted t => s ++ t
    | _ => s) ""

/-- A word that gives a name a value. -/
def Word.assignment? : Word → Option Assignment
  | .mk (.plain s :: ps) =>
    let name := s.toList.takeWhile continuesName
    match s.toList.drop name.length with
    | '=' :: value =>
      if isName (String.ofList name) then
        some (.mk (String.ofList name)
          (.mk (if value.isEmpty then ps else .plain (String.ofList value) :: ps)))
      else none
    | _ => none
  | _ => none

/-- The word that stands for all arguments, each of them as it is. -/
def Word.allArguments : Word := .mk [.parameter "@" .value false (.mk []) true]

end NotebookTidy.Shell
