/-! Signals.

A signal is a number; zero stands for the end of a shell where a signal is named. Most
signals end a process that has not asked for anything else. -/
namespace NotebookTidy.Shell

/-- The number of signals, with zero among them. -/
def signalCount : Nat := 65

def signalInterrupt : Nat := 2
def signalQuit : Nat := 3
def signalArithmetic : Nat := 8
def signalKill : Nat := 9
def signalPipe : Nat := 13
def signalTerminate : Nat := 15
def signalChild : Nat := 17
def signalStop : Nat := 19

/-- The names of the signals below those for programs of their own. Some have numbers only. -/
def commonSignalNames : List String :=
  ["EXIT", "HUP", "INT", "QUIT", "ILL", "TRAP", "ABRT", "BUS", "FPE", "KILL", "USR1", "SEGV",
    "USR2", "PIPE", "ALRM", "TERM", "16", "CHLD", "CONT", "STOP", "TSTP", "TTIN", "TTOU", "URG",
    "XCPU", "XFSZ", "VTALRM", "PROF", "WINCH", "IO", "PWR", "SYS", "32", "33"]

/-- The names of all signals. The last ones are counted from the first and from the last of
them. -/
def signalNames : List String :=
  commonSignalNames ++ ["RTMIN"]
    ++ (List.range 15).map (fun i => "RTMIN+" ++ toString (i + 1))
    ++ (List.range 14).map (fun i => "RTMAX-" ++ toString (14 - i))
    ++ ["RTMAX"]

def signalName (n : Nat) : String := signalNames[n]?.getD (toString n)

/-- The number of a signal, from digits. -/
def signalNumber? (s : String) : Option Nat :=
  let cs := s.toList
  if cs.isEmpty || !cs.all Char.isDigit then none
  else
    let n := cs.foldl (fun n c => n * 10 + (c.toNat - '0'.toNat)) 0
    if n < signalCount then some n else none

/-- A signal by its number, or by its name in letters of either case; the names before the
first one do not count. -/
def signal? (first : Nat) (s : String) : Option Nat :=
  match signalNumber? s with
  | some n => some n
  | none =>
    let name := s.toList.map Char.toUpper
    ((List.range signalCount).drop first).find? fun n =>
      (signalName n).toList.map Char.toUpper == name

/-- What is said of a process that a signal has ended. -/
def signalDescription (n : Nat) : String :=
  let common :=
    ["", "Hangup", "Interrupt", "Quit", "Illegal instruction", "Trace/breakpoint trap",
      "Aborted", "Bus error", "Floating point exception", "Killed", "User defined signal 1",
      "Segmentation fault", "User defined signal 2", "Broken pipe", "Alarm clock", "Terminated",
      "Stack fault", "Child exited", "Continued", "Stopped (signal)", "Stopped",
      "Stopped (tty input)", "Stopped (tty output)", "Urgent I/O condition",
      "CPU time limit exceeded", "File size limit exceeded", "Virtual timer expired",
      "Profiling timer expired", "Window changed", "I/O possible", "Power failure",
      "Bad system call"]
  match common[n]? with
  | some text => text
  | none => if n < 34 then "Unknown signal " ++ toString n
    else "Real-time signal " ++ toString (n - 34)

/-- A process takes no notice of these signals unless it has asked for them. -/
def isHarmless (n : Nat) : Bool := n == 17 || n == 18 || n == 23 || n == 28

/-- These signals stop a process for a while. -/
def isStopping (n : Nat) : Bool := 19 ≤ n && n ≤ 22

/-- Nothing can be asked for in place of what these signals do. -/
def isUnstoppable (n : Nat) : Bool := n == signalKill || n == signalStop

/-- The status that stands for the end of a process by a signal. -/
def signalStatus (n : Nat) : Nat := 128 + n

end NotebookTidy.Shell
