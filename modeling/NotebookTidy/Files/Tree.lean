import NotebookTidy.Files.IoError
import NotebookTidy.Files.Path

/-! Files.

The tree says what there is at each location, a location being the names on the way
from the root. A path is walked piece by piece, from the root or from the working
directory; every piece needs a directory to be looked up in, so that a file with a
slash or a dot behind it is not found to be one. Besides directories and files there are
devices, which hold nothing, and links, which lead to other locations. -/
namespace NotebookTidy.Files

abbrev Location := List Bytes

inductive Device where
  /-- It takes everything that is written. -/
  | null
  /-- It takes nothing. -/
  | full
  /-- There is no end to what can be read from it. -/
  | endless
  /-- The terminal, which nobody sits at. -/
  | terminal
deriving DecidableEq, Repr

inductive Entry where
  | directory
  | file (content : Bytes)
  | device (d : Device)
  | link (target : Location)
deriving DecidableEq

structure Tree where
  entries : List (Location × Entry)
  workDir : Location

namespace Tree

/-- What there is at a location. The root is always a directory. -/
def lookup (t : Tree) (l : Location) : Option Entry :=
  if l = [] then some .directory
  else (t.entries.find? (·.1 == l)).map Prod.snd

/-- Puts an entry at a location, in place of what was there. -/
def put (t : Tree) (l : Location) (e : Entry) : Tree :=
  if t.entries.any (·.1 == l) then
    { t with entries := t.entries.map fun x => if x.1 = l then (l, e) else x }
  else { t with entries := t.entries ++ [(l, e)] }

/-- How many bytes a name may have. -/
def nameLimit : Nat := 255

/-- A path with this many bytes is too long for any use. -/
def pathLimit : Nat := 4096

/-- Walks pieces from a location. A link is left at once for what it leads to. -/
def walk (t : Tree) (l : Location) : List Bytes → Except IoError Location
  | [] => .ok l
  | piece :: pieces =>
    if t.lookup l ≠ some .directory then .error .notADirectory
    else if isIdle piece then walk t l pieces
    else if piece = above then walk t l.dropLast pieces
    else if nameLimit < piece.length then .error .nameTooLong
    else match t.lookup (l ++ [piece]) with
      | none => .error .notFound
      | some (.link target) => walk t target pieces
      | some _ => walk t (l ++ [piece]) pieces

/-- Where a path starts. -/
def origin (t : Tree) (p : Path) : Location :=
  if p.bytes.head? = some slash then [] else t.workDir

/-- A path that can be walked at all. -/
def checkPath (p : Path) : Except IoError Unit :=
  if p.bytes.contains 0 then .error .nulInPath
  else if pathLimit ≤ p.bytes.length then .error .nameTooLong
  else if p.bytes = [] then .error .notFound
  else .ok ()

/-- The location of what is there at a path. -/
def resolve (t : Tree) (p : Path) : Except IoError Location := do
  checkPath p
  t.walk (t.origin p) p.pieces

def pathExists (t : Tree) (p : Path) : Bool :=
  match t.resolve p with
  | .ok _ => true
  | .error _ => false

/-- The location at which a path would be created or overwritten: its last piece has to
be a name with nothing behind it, in a directory that is there. -/
def creatable (t : Tree) (p : Path) : Except IoError Location := do
  checkPath p
  let body := (p.pieces.reverse.dropWhile (· == [])).reverse
  match body.getLast? with
  | none => .error .isADirectory
  | some last =>
    let parent ← t.walk (t.origin p) body.dropLast
    if t.lookup parent ≠ some .directory then .error .notADirectory
    else if last = here ∨ last = above ∨ body.length < p.pieces.length then .error .isADirectory
    else if nameLimit < last.length then .error .nameTooLong
    else match t.lookup (parent ++ [last]) with
      | some (.link target) => .ok target
      | _ => .ok (parent ++ [last])

/-- Whether the last piece of a path is the name of a link. -/
def isLink (t : Tree) (p : Path) : Bool :=
  match p.pieces.getLast?, t.walk (t.origin p) p.pieces.dropLast with
  | some last, .ok parent =>
    match t.lookup (parent ++ [last]) with
    | some (.link _) => true
    | _ => false
  | _, _ => false

/-- The bytes of a file. -/
def read (t : Tree) (p : Path) : Except IoError Bytes := do
  let l ← t.resolve p
  match t.lookup l with
  | some (.file content) => .ok content
  | some (.device .terminal) => .error .noDevice
  | some (.device _) => .ok []
  | some .directory => .error .isADirectory
  | some (.link _) | none => .error .notFound

/-- The text of a file, which has to be UTF-8. -/
def readText (t : Tree) (p : Path) : Except IoError String := do
  let content ← t.read p
  match Text.decode? content with
  | some s => .ok s
  | none => .error .notUtf8

/-- Creates or overwrites a file. -/
def write (t : Tree) (p : Path) (content : Bytes) : Except IoError Tree := do
  let l ← t.creatable p
  match t.lookup l with
  | some .directory => .error .isADirectory
  | some (.device .null) | some (.device .endless) => .ok t
  | some (.device .terminal) => .error .noDevice
  | some (.device .full) => if content.isEmpty then .ok t else .error .noSpace
  | _ => .ok (t.put l (.file content))

/-- Copies a file. -/
def copy (t : Tree) (source target : Path) : Except IoError Tree := do
  let l ← t.resolve source
  match t.lookup l with
  | some (.file content) => t.write target content
  | some .directory | some (.device _) => .error .notARegularFile
  | some (.link _) | none => .error .notFound

/-- Makes the directories on the way to a location, the location itself not included. -/
def makeParents (t : Tree) (l : Location) : Tree :=
  ((List.range l.length).map l.take).foldl
    (fun t d => if (t.lookup d).isNone then t.put d .directory else t) t

/-- Puts a new file or directory at a path below the working directory, making the
directories on the way to it. -/
def create (t : Tree) (p : Path) (e : Entry) : Tree :=
  let l := t.workDir ++ p.pieces.filter fun piece => !isIdle piece
  let t := t.makeParents l
  match e, t.lookup l with
  | .directory, some .directory => t
  | _, _ => t.put l e

/-- What is below the working directory, by path from there. -/
def listing (t : Tree) : List (Path × Entry) :=
  t.entries.filterMap fun (l, e) =>
    if t.workDir.isPrefixOf l ∧ t.workDir.length < l.length then
      some (Path.ofPieces (l.drop t.workDir.length), e)
    else none

end Tree
end NotebookTidy.Files
