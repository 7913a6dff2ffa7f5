import NotebookTidy.Config.JsonReader
import NotebookTidy.Config.TomlReader
import NotebookTidy.Failure
import NotebookTidy.Files.Tree

/-! Loading a config.

What is given is the path of a file, if there is something at that path, and the text of
a config otherwise. The extension of a file tells its format; a text is JSON, or else
TOML. TOML can be left out of a build: `Support` says whether it is in. -/
namespace NotebookTidy.Config
open Files

/-- Whether configs in TOML can be read. -/
inductive Support where
  | jsonOnly
  | jsonAndToml
deriving DecidableEq, Repr

def fromJson (text : String) : Except Failure Config :=
  (readJson text).mapError .json

/-- The config that a TOML file gives. -/
def fromToml (toml : String → Option Config) : Support → String → Except Failure Config
  | .jsonOnly, _ => .error .tomlNotEnabled
  | .jsonAndToml, text =>
    match toml text with
    | some c => .ok c
    | none => .error .toml

/-- The config that is given as a text. If it is neither JSON nor TOML, the fault is that
of the JSON. -/
def fromText (toml : String → Option Config) (support : Support) (text : String) :
    Except Failure Config :=
  match fromJson text, support with
  | .ok c, _ => .ok c
  | .error _, .jsonOnly => .error .unsupportedFormat
  | .error f, .jsonAndToml =>
    match toml text with
    | some c => .ok c
    | none => .error f

/-- The config of a file, whose format is told by its extension. -/
def fromFile (toml : String → Option Config) (support : Support) (t : Tree) (path : Path) :
    Except Failure Config :=
  match t.readText path with
  | .error e => .error (.io e)
  | .ok text =>
    if path.hasExtension "json" then fromJson text
    else if path.hasExtension "toml" then fromToml toml support text
    else .error .unsupportedFormat

/-- The config that is given as a path or as a text, for any way of reading TOML. -/
def loadWith (toml : String → Option Config) (support : Support) (t : Tree) (given : String) :
    Except Failure Config :=
  let path := Path.ofString given
  if t.pathExists path then fromFile toml support t path else fromText toml support given

/-- The config that is given as a path or as a text. -/
def load : Support → Tree → String → Except Failure Config := loadWith readToml?

end NotebookTidy.Config
