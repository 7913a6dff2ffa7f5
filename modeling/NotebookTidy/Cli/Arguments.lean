/-! The arguments of the command line.

Options may stand anywhere among the paths until a double hyphen, after which all
arguments are paths. Short options may be run together. The first argument that cannot
be understood, or that asks for help or the version, ends the reading. Paths, and the
value that follows an option, are looked at when the next argument of another kind is
taken: an argument that cannot be understood is told of before them. No path may be
empty, and only `-v` may be repeated. -/
namespace NotebookTidy.Cli

structure Options where
  paths : List String
  overwrite : Bool
  config : Option String
  verbosity : Nat
deriving DecidableEq, Repr

inductive Switch where
  | noOverwrite
  | config
  | verbose
  | help
  | version
deriving DecidableEq, Repr

/-- How a switch is shown. -/
def Switch.shown : Switch → String
  | .noOverwrite => "--no-overwrite"
  | .config => "--config <FILE_OR_JSON>"
  | .verbose => "--verbose..."
  | .help => "--help"
  | .version => "--version"

def Switch.long? (name : String) : Option Switch :=
  match name with
  | "no-overwrite" => some .noOverwrite
  | "config" => some .config
  | "verbose" => some .verbose
  | "help" => some .help
  | "version" => some .version
  | _ => none

def Switch.short? (c : Char) : Option Switch :=
  match c with
  | 'v' => some .verbose
  | 'h' => some .help
  | 'V' => some .version
  | _ => none

/-- Why the reading of arguments ended before their end. -/
inductive Stop where
  | help
  | version
  | unexpectedArgument (arg : String)
  | unexpectedValue (value : String) (switch : Switch)
  | repeated (switch : Switch)
  | missingConfig
  | emptyPath
  | missingPaths
deriving DecidableEq, Repr

/-- Values that were read and not looked at yet. -/
inductive Pending where
  | nothing
  | config (value : String)
  | paths (paths : List String)
deriving DecidableEq, Repr

/-- What has been read. -/
structure Reading where
  options : Options
  pending : Pending
  overwriteGiven : Bool

namespace Reading

def start : Reading := ⟨⟨[], true, none, 0⟩, .nothing, false⟩

def setConfig (r : Reading) (value : String) : Except Stop Reading :=
  if r.options.config.isSome then .error (.repeated .config)
  else .ok { r with options := { r.options with config := some value } }

/-- Looks at the values that were read last. -/
def settle (r : Reading) : Except Stop Reading :=
  let settled := { r with pending := .nothing }
  match r.pending with
  | .nothing => .ok settled
  | .config value => settled.setConfig value
  | .paths paths =>
    if paths.contains "" then .error .emptyPath
    else .ok { settled with options := { r.options with paths := r.options.paths ++ paths } }

def addPath (r : Reading) (path : String) : Except Stop Reading :=
  match r.pending with
  | .paths paths => .ok { r with pending := .paths (paths ++ [path]) }
  | _ => do
    let r ← r.settle
    .ok { r with pending := .paths [path] }

/-- Takes a switch that has no value. -/
def flag (r : Reading) (s : Switch) : Except Stop Reading := do
  let r ← r.settle
  match s with
  | .noOverwrite =>
    if r.overwriteGiven then .error (.repeated .noOverwrite)
    else .ok { r with options := { r.options with overwrite := false }, overwriteGiven := true }
  | .verbose => .ok { r with options := { r.options with verbosity := r.options.verbosity + 1 } }
  | .help => .error .help
  | .version => .error .version
  | .config => .error .missingConfig

/-- Takes short options that are run together. -/
def shorts (r : Reading) : List Char → Except Stop Reading
  | [] => .ok r
  | c :: cs =>
    match Switch.short? c with
    | none => .error (.unexpectedArgument (String.ofList ['-', c]))
    | some s => do
      let r ← r.flag s
      r.shorts cs

end Reading

/-- A long option, its name and the value that is written with it. -/
def splitLong (body : List Char) : String × Option String :=
  let name := String.ofList (body.takeWhile (· != '='))
  match body.dropWhile (· != '=') with
  | [] => (name, none)
  | _ :: value => (name, some (String.ofList value))

/-- Whether an argument is an option or the end of options, and so no value. -/
def looksLikeOption (arg : String) : Bool :=
  match arg.toList with
  | '-' :: _ :: _ => true
  | _ => false

/-- The fault of an argument that follows `--config` in place of its value. Those that
cannot be understood come first. -/
def configFault (arg : String) : Stop :=
  match arg.toList with
  | '-' :: '-' :: [] => .missingConfig
  | '-' :: '-' :: body =>
    let (name, value) := splitLong body
    match Switch.long? name, value with
    | none, _ => .unexpectedArgument ("--" ++ name)
    | some .config, _ => .missingConfig
    | some s, some v => .unexpectedValue v s
    | some _, none => .missingConfig
  | '-' :: c :: _ =>
    match Switch.short? c with
    | none => .unexpectedArgument (String.ofList ['-', c])
    | some _ => .missingConfig
  | _ => .missingConfig

/-- Reads arguments one after the other. -/
def readFrom (r : Reading) : List String → Except Stop Reading
  | [] => r.settle
  | arg :: args =>
    match arg.toList with
    | '-' :: '-' :: [] => do
      let r ← args.foldlM Reading.addPath r
      r.settle
    | '-' :: '-' :: body =>
      let (name, value) := splitLong body
      match Switch.long? name, value with
      | none, _ => .error (.unexpectedArgument ("--" ++ name))
      | some .config, some v => do
        let r ← r.settle
        let r ← r.setConfig v
        readFrom r args
      | some .config, none => do
        let r ← r.settle
        match args with
        | [] => .error .missingConfig
        | v :: args =>
          if looksLikeOption v then .error (configFault v)
          else readFrom { r with pending := .config v } args
      | some s, some v => .error (.unexpectedValue v s)
      | some s, none => do
        let r ← r.flag s
        readFrom r args
    | '-' :: c :: cs => do
      let r ← r.shorts (c :: cs)
      readFrom r args
    | _ => do
      let r ← r.addPath arg
      readFrom r args

/-- The options that the arguments give. There has to be a path. -/
def readArguments (args : List String) : Except Stop Options := do
  let r ← readFrom .start args
  if r.options.paths.isEmpty then .error .missingPaths else .ok r.options

end NotebookTidy.Cli
