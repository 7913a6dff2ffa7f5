import NotebookTidy.Shell.Directory
import NotebookTidy.Shell.Getopts
import NotebookTidy.Shell.Input
import NotebookTidy.Shell.Jobs
import NotebookTidy.Shell.Limits
import NotebookTidy.Shell.Print
import NotebookTidy.Shell.Settings
import NotebookTidy.Shell.Traps

/-! The commands that are part of the shell.

Such a command gives its status. If it goes wrong it says so, and a special one ends the
shell then. -/
namespace NotebookTidy.Shell

def printFormat (args : List String) : Act Nat := do
  let (_, args) ← Act.options [] args
  match args with
  | [] => Act.fail "usage: printf format [arg ...]"
  | form :: args =>
    let p := format form args
    for c in p.complaints do
      modify fun s => s.complain c
    match p.fault with
    | some what =>
      modify fun s => s.complain what
      let _ ← Act.print "printf" p.out
      modify fun s => { s with status := 2 }
      failure
    | none =>
      let status ← Act.print "printf" p.out
      return if p.complaints.isEmpty then status else 1

def testCondition (args : List String) : Act Nat := do
  match (← get).condition args with
  | .ok holds => return if holds then 0 else 1
  | .error what => Act.fail what

/-- The commands that do not run others. -/
def plainBuiltin? (name : String) : Option (List String → Act Nat) :=
  match name with
  | ":" | "true" => some fun _ => return 0
  | "times" => some fun _ => showTimes
  | "jobs" => some showJobs
  | "kill" => some kill
  | "ulimit" => some changeLimit
  | "wait" => some waitForJobs
  | "fg" | "bg" => some fetchJob
  | "hash" => some hashNames
  | "false" => some fun _ => return 1
  | "echo" => some fun args => Act.print "echo" (echo args)
  | "printf" => some printFormat
  | "test" => some testCondition
  | "[" => some fun args =>
    if (args.getLast?.getD "").startsWith "]" then testCondition args.dropLast
    else Act.fail "missing ]"
  | "cd" | "chdir" => some changeDirectory
  | "pwd" => some showDirectory
  | "export" => some (markVariables "export" ({ · with exported := true }) Variable.exported)
  | "readonly" =>
    some (markVariables "readonly" ({ · with readOnly := true }) Variable.readOnly)
  | "unset" => some unsetNames
  | "local" => some hideNames
  | "set" => some setArguments
  | "shift" => some shiftArguments
  | "read" => some readVariables
  | "getopts" => some takeOption
  | "exit" => some leaveShell
  | "return" => some leaveFunction
  | "break" => some (leaveLoops .breaks)
  | "continue" => some (leaveLoops .continues)
  | "trap" => some trap
  | "umask" => some changeMask
  | "type" => some (describeNames "type" true)
  | "alias" => some fun args => do
    if args.isEmpty then Act.printText "alias" (← get).aliasReport else setAliases args
  | "unalias" => some dropAliases
  | _ => none

end NotebookTidy.Shell
