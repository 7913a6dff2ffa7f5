import NotebookTidy.Cleaner
import NotebookTidy.Cli.Arguments
import NotebookTidy.Cli.Process
import NotebookTidy.Config.Load
import NotebookTidy.Log.Filter
import NotebookTidy.Text.Visible

/-! A run of the program: from its arguments to its output and exit code. -/
namespace NotebookTidy.Cli
open Files

structure Output where
  code : Nat
  stdout : List String
  stderr : List String
  tree : Tree

def helpText : List String :=
  ["Strip outputs from notebooks and format their code",
    "",
    "Usage: clean_ipynb [OPTIONS] <PATHS>...",
    "",
    "Arguments:",
    "  <PATHS>...  Notebooks (.ipynb) or Python files (.py) to clean",
    "",
    "Options:",
    "      --no-overwrite           Write `<name>.cleaned.<ext>` next to each file instead of "
      ++ "overwriting it",
    "      --config <FILE_OR_JSON>  Formatter config: a .json/.toml file or an inline JSON string",
    "  -v, --verbose...             More logging (-v info, -vv debug)",
    "  -h, --help                   Print help",
    "  -V, --version                Print version"]

def versionText : String := "clean_ipynb 0.1.0"

/-- What is wrong with the arguments, if anything is. Of what was given the visible
characters are shown. -/
def Stop.message? : Stop → Option String
  | .help => none
  | .version => none
  | .unexpectedArgument arg => some ("unexpected argument '" ++ Text.visible arg ++ "' found")
  | .unexpectedValue value s =>
    some ("unexpected value '" ++ Text.visible value ++ "' for '" ++ s.shown
      ++ "' found; no more were expected")
  | .repeated s => some ("the argument '" ++ s.shown ++ "' cannot be used multiple times")
  | .missingConfig =>
    some ("a value is required for '" ++ Switch.config.shown ++ "' but none was supplied")
  | .emptyPath => some "a value is required for '<PATHS>...' but none was supplied"
  | .missingPaths => some "the following required arguments were not provided:"

/-- The output of a run that only looked at its arguments. Of what is wrong with them the
first line is told. -/
def stopped (t : Tree) (s : Stop) : Output :=
  match s, s.message? with
  | _, some message => ⟨2, [], (Text.printedLines ("error: " ++ message)).take 1, t⟩
  | .version, none => ⟨0, [versionText], [], t⟩
  | _, none => ⟨0, helpText, [], t⟩

/-- The causes of a failure, numbered if there are several. -/
def causeLines : List String → List String
  | [cause] => ["    " ++ cause]
  | causes =>
    causes.zipIdx.map fun (cause, i) => "    " ++ toString i ++ ": " ++ cause

/-- The output of a run whose config cannot be loaded. -/
def refused (t : Tree) (f : Failure) : Output :=
  ⟨1, [],
    ["Error: Failed to load formatter config", "", "Caused by:"] ++ causeLines f.chain, t⟩

/-- The config that the options ask for. -/
def loadConfig (support : Config.Support) (t : Tree) : Option String → Except Failure Config
  | some given => Config.load support t given
  | none => .ok .standard

/-- Cleans the paths with a config. -/
def cleanPaths (runner : Runner) (filter : Option String) (t : Tree) (o : Options)
    (c : Config) : Output :=
  let done := (processAll (c.cleaner runner) o.overwrite (o.paths.map Path.ofString)).run t
  ⟨exitCode done.outcome, [], Log.render (Log.chooseFilter filter o.verbosity) done.events,
    done.tree⟩

/-- A run on some files. `filter` says what is logged, if it is given. -/
def run (runner : Runner) (support : Config.Support) (filter : Option String)
    (args : List String) (t : Tree) : Output :=
  match readArguments args with
  | .error s => stopped t s
  | .ok o =>
    match loadConfig support t o.config with
    | .error f => refused t f
    | .ok c => cleanPaths runner filter t o c

end NotebookTidy.Cli
