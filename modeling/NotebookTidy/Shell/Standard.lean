import NotebookTidy.Command
import NotebookTidy.Shell.Run

/-! The files that there are before any others, and starting commands among files.

There are the usual directories and devices, and the programs in the directories in which
they are looked up. -/
namespace NotebookTidy.Shell
open Files

/-! ### Files -/

/-- A location by the names on the way to it, with slashes between them. -/
def locationOf (path : String) : Location :=
  (Text.splitAt '/' path.toList).map fun name => Text.encode (String.ofList name)

/-- What a program holds, as a file: no text. -/
def programContent : Bytes := [0x7f, 0x45, 0x4c, 0x46, 0xff]

def programFiles : List (Location × Entry) :=
  programNames.map fun p => (locationOf ("usr/bin/" ++ p.1), Entry.file programContent)

def standardDirectories : List String :=
  ["boot", "dev", "dev/pts", "dev/shm", "etc", "home", "media", "mnt", "opt", "proc",
    "proc/self", "proc/self/fd", "root", "run", "run/lock", "srv", "sys", "tmp", "usr", "usr/bin",
    "usr/games", "usr/include", "usr/lib", "usr/lib64", "usr/local", "usr/local/bin",
    "usr/local/etc", "usr/local/games", "usr/local/include", "usr/local/lib", "usr/local/sbin",
    "usr/local/share", "usr/local/src", "usr/sbin", "usr/share", "usr/src", "var", "var/backups",
    "var/cache", "var/lib", "var/local", "var/log", "var/mail", "var/opt", "var/spool",
    "var/tmp"]

/-- Other names of files and directories. -/
def standardLinks : List (String × String) :=
  [("bin", "usr/bin"), ("sbin", "usr/sbin"), ("lib", "usr/lib"), ("lib64", "usr/lib64"),
    ("usr/bin/sh", "usr/bin/dash"), ("var/run", "run"), ("var/lock", "run/lock"),
    ("dev/fd", "proc/self/fd"), ("dev/stdin", "proc/self/fd/0"),
    ("dev/stdout", "proc/self/fd/1"), ("dev/stderr", "proc/self/fd/2")]

def standardDevices : List (String × Device) :=
  [("dev/null", .null), ("dev/full", .full), ("dev/zero", .endless), ("dev/random", .endless),
    ("dev/urandom", .endless), ("dev/tty", .terminal)]

/-- The list of users: the name of each, a number, a group, what the name stands for, a home
directory and a shell. -/
def standardUsers : String :=
  let closed := "/usr/sbin/nologin"
  let users : List (String × Nat × Nat × String × String × String) :=
    [("root", 0, 0, "root", "/root", "/bin/bash"),
      ("daemon", 1, 1, "daemon", "/usr/sbin", closed),
      ("bin", 2, 2, "bin", "/bin", closed),
      ("sys", 3, 3, "sys", "/dev", closed),
      ("sync", 4, 65534, "sync", "/bin", "/bin/sync"),
      ("games", 5, 60, "games", "/usr/games", closed),
      ("man", 6, 12, "man", "/var/cache/man", closed),
      ("lp", 7, 7, "lp", "/var/spool/lpd", closed),
      ("mail", 8, 8, "mail", "/var/mail", closed),
      ("news", 9, 9, "news", "/var/spool/news", closed),
      ("uucp", 10, 10, "uucp", "/var/spool/uucp", closed),
      ("proxy", 13, 13, "proxy", "/bin", closed),
      ("www-data", 33, 33, "www-data", "/var/www", closed),
      ("backup", 34, 34, "backup", "/var/backups", closed),
      ("list", 38, 38, "Mailing List Manager", "/var/list", closed),
      ("irc", 39, 39, "ircd", "/run/ircd", closed),
      ("_apt", 42, 65534, "", "/nonexistent", closed),
      ("nobody", 65534, 65534, "nobody", "/nonexistent", closed)]
  String.join (users.map fun (name, user, group, meaning, home, shell) =>
    ":".intercalate [name, "x", toString user, toString group, meaning, home, shell] ++ "\n")

/-- The working directory of the first command. -/
def workPath : String := "/tmp/work"

/-- An empty working directory among the standard files. -/
def standardTree : Tree :=
  let workDir := (locationOf workPath).drop 1
  { entries :=
      standardDirectories.map (fun path => (locationOf path, .directory))
        ++ [(workDir, .directory)]
        ++ standardLinks.map (fun l => (locationOf l.1, .link (locationOf l.2)))
        ++ programFiles
        ++ standardDevices.map (fun d => (locationOf d.1, .device d.2))
        ++ [(locationOf "etc/passwd", .file (Text.encode standardUsers))]
    workDir := workDir }

/-! ### Starting commands -/

/-- The program that the name in a command stands for. -/
def commandProgram (t : Tree) (name : String) : Except IoError Program :=
  let programAtPath (path : String) : Except IoError Program := do
    match programAt? (← t.resolve (Path.ofString path)) with
    | some p => .ok p
    | none => .error .permissionDenied
  if name = "" then .error .notFound
  else programAtPath (if name.contains '/' then name else "/usr/bin/" ++ name)

/-- How often a loop may go round, and how deep commands may be nested. -/
def longPatience : Nat := 1000000

/-- The number of the process that starts a command. -/
def callerProcess : Nat := 1000

/-- The state in which a command starts. -/
def startState (t : Tree) (name : String) (streams : Streams) : State where
  tree := t
  channels := match streams with
    | .nothing => #[.device .null .read, .device .null .write, .device .null .write]
    | .pipes input => #[.source input, .sink [], .sink []]
  descriptors := [(0, 0), (1, 1), (2, 2)]
  bindings := [("PATH", ⟨some "/usr/bin:/bin", true, false⟩)]
  functions := []
  name := name
  arguments := []
  options := []
  status := 0
  outputStatus := 0
  line := 0
  metEnd := false
  tracing := false
  builtin := none
  flow := .next
  loops := 0
  hidden := []
  traps := []
  deaf := []
  pending := []
  statusBefore := none
  process := callerProcess + 1
  shellProcess := callerProcess + 1
  parents := [callerProcess]
  processes := callerProcess + 1
  sent := []
  documents := #[]
  aliases := []
  optionIndex := 1
  optionPlace := 0
  readers := []
  calls := 0
  patience := longPatience
  hashed := []
  jobs := []
  lastJob := none
  mask := 18
  limits := []
  walked := locationText t.workDir

/-- How much of its input a program can be given without reading it. -/
def pipeCapacity : Nat := 65536

/-- Input is kept in pages of this many bytes, which are freed when they have been read as a
whole. -/
def pipePage : Nat := 4096

/-- Whether a program could be given all of its input, when so much of it was left unread. -/
def acceptsInput (input unread : Nat) : Bool :=
  unread + (input - unread) % pipePage ≤ pipeCapacity

/-- What comes of starting a command among some files. -/
def start : Runner := fun command streams t =>
  if (command.program :: command.args).any (·.contains '\x00') then (.notStarted .nulInArgument, t)
  else match commandProgram t command.program with
    | .error e => (.notStarted e, t)
    | .ok p =>
      let name := octetText command.program
      let s : State := runProgram (evaluator longPatience) p name (command.args.map octetText)
        (startState t name streams)
      let accepted := match streams, s.channels[(0 : Nat)]? with
        | .pipes input, some (.source rest) => acceptsInput input.length rest.length
        | _, _ => true
      (.finished s.lastStatus (s.written 1) (s.written 2)
        (if accepted then none else some .brokenPipe),
        { s.tree with workDir := t.workDir })

end NotebookTidy.Shell
