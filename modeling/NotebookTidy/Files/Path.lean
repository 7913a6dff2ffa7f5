import NotebookTidy.Text.Pieces
import NotebookTidy.Text.Utf8

/-! Paths.

A path is any bytes. Slashes divide it into pieces; empty pieces and dots count for
nothing, except that a path that begins with a slash starts at the root and one that
begins with a dot names the directory it starts in. Two paths are the same when their
components are.

The file name is the last piece that counts, unless that is a pair of dots. Its
extension is what follows its last dot, provided that something precedes the dot. -/
namespace NotebookTidy.Files

structure Path where
  bytes : Bytes
deriving DecidableEq, Repr

def slash : UInt8 := 47
def dot : UInt8 := 46

def here : Bytes := [dot]
def above : Bytes := [dot, dot]

/-- A piece that counts for nothing. -/
def isIdle (piece : Bytes) : Bool := piece == [] || piece == here

inductive Component where
  | root
  | current
  | parent
  | name (bytes : Bytes)
deriving DecidableEq, Repr

namespace Path

def ofString (s : String) : Path := ⟨Text.encode s⟩

def ofPieces (pieces : List Bytes) : Path := ⟨Text.joinWith slash pieces⟩

def pieces (p : Path) : List Bytes := Text.splitAt slash p.bytes

/-- The pieces in two parts. The first part holds what says where the path starts, the
root or the current directory, if anything does. -/
def parts (p : Path) : List Bytes × List Bytes :=
  match p.pieces with
  | [] => ([], [])
  | first :: rest =>
    if first = here ∨ (first = [] ∧ rest ≠ []) then ([first], rest) else ([], first :: rest)

def components (p : Path) : List Component :=
  let (start, body) := p.parts
  let lead := start.map fun s => if s = here then Component.current else .root
  lead ++ (body.filter fun piece => !isIdle piece).map fun piece =>
    if piece = above then .parent else .name piece

/-- Pieces without the idle ones at their end. -/
def trimIdle (pieces : List Bytes) : List Bytes :=
  (pieces.reverse.dropWhile isIdle).reverse

/-- The last piece that counts, if it names something. -/
def fileName? (p : Path) : Option Bytes :=
  match (trimIdle p.parts.2).getLast? with
  | some piece => if piece = above then none else some piece
  | none => none

/-- A file name without its extension, and the extension. -/
def splitExtension (name : Bytes) : Bytes × Option Bytes :=
  match (Text.splitAt dot name).reverse with
  | ext :: before :: more =>
    let stem := Text.joinWith dot (before :: more).reverse
    if stem = [] then (name, none) else (stem, some ext)
  | _ => (name, none)

def extension? (p : Path) : Option Bytes :=
  p.fileName?.bind fun name => (splitExtension name).2

/-- The path with another file name. A path without a file name gets it as one more
piece. -/
def withFileName (p : Path) (name : Bytes) : Path :=
  match p.fileName? with
  | some _ =>
    let (start, body) := p.parts
    ofPieces (start ++ trimIdle (trimIdle body).dropLast ++ [name])
  | none =>
    let pieces := if p.pieces.getLast? = some [] then p.pieces.dropLast else p.pieces
    ofPieces (pieces ++ [name])

/-- What marks the name of a cleaned file. -/
def marker : Bytes := Text.encode "cleaned"

/-- The name of the cleaned file: the marker goes before the extension. -/
def cleanedName (name : Bytes) : Bytes :=
  match splitExtension name with
  | (stem, some ext) => stem ++ dot :: marker ++ dot :: ext
  | (stem, none) => stem ++ dot :: marker

/-- The path beside `p` that its cleaned copy goes to. -/
def cleaned (p : Path) : Path :=
  p.withFileName (cleanedName (p.fileName?.getD []))

/-- The extension, as far as it is this text. -/
def hasExtension (p : Path) (ext : String) : Bool :=
  p.extension? == some (Text.encode ext)

end Path
end NotebookTidy.Files
