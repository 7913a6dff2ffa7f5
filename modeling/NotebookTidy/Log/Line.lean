import NotebookTidy.Event
import NotebookTidy.Text.Pieces
import NotebookTidy.Text.Utf8

/-! Events as lines of a log.

An entry has a topic, the part of the program that it comes from, and a level, a message,
and fields with their values. All but the topic is written. Values are written as they
are; in a message the characters that steer a terminal are escaped. An entry in which
there is a newline is several lines. -/
namespace NotebookTidy.Log
open Files

/-- How much an event matters. -/
inductive Level where
  | error
  | warn
  | info
  | debug
  | trace
deriving DecidableEq, Repr

namespace Level

/-- Lower ranks matter more. -/
def rank : Level → Nat
  | .error => 1
  | .warn => 2
  | .info => 3
  | .debug => 4
  | .trace => 5

def name : Level → String
  | .error => "ERROR"
  | .warn => "WARN"
  | .info => "INFO"
  | .debug => "DEBUG"
  | .trace => "TRACE"

end Level

/-! ### Topics -/

/-- The program as a whole. -/
def programTopic : String := "clean_ipynb"

/-- The cleaning of files and documents. -/
def notebooksTopic : String := programTopic ++ "::notebook_cleaner"

/-- The tidying of cells. -/
def cellsTopic : String := programTopic ++ "::visitor"

/-- The starting of other programs. -/
def commandsTopic : String := programTopic ++ "::cleaner"

/-! ### Entries -/

structure Entry where
  topic : String
  level : Level
  message : String
  fields : List (String × String)

/-- A path for people: what is no UTF-8 in it is replaced. -/
def shownPath (p : Path) : String := Text.decodeLossy p.bytes

/-- What is logged of an event. -/
def entry? : Event → Option Entry
  | .copied source target =>
    some ⟨notebooksTopic, .debug, "copied before cleaning",
      [("from", shownPath source), ("to", shownPath target)]⟩
  | .formatterStarted command input =>
    some ⟨commandsTopic, .debug, "running formatter",
      [("program", command.program), ("bytes", toString input.utf8ByteSize)]⟩
  | .toolchainAsked => none
  | .probeFinished program status =>
    some ⟨commandsTopic, .debug, "toolchain probe finished",
      [("program", program), ("status", "exit status: " ++ toString status)]⟩
  | .probeNotStarted program e =>
    some ⟨commandsTopic, .debug, "toolchain probe could not start",
      [("program", program), ("error", e.message)]⟩
  | .cellDropped index =>
    some ⟨cellsTopic, .debug, "dropping code cell that formats to nothing",
      [("cell", toString index)]⟩
  | .cellsCleaned language cells dropped =>
    some ⟨notebooksTopic, .debug, "cleaned notebook cells",
      [("language", language), ("cells", toString cells), ("dropped", toString dropped)]⟩
  | .notebookCleaned path =>
    some ⟨notebooksTopic, .info, "cleaned notebook", [("path", shownPath path)]⟩
  | .notebookLeft path language =>
    some ⟨notebooksTopic, .warn, "no formatter available, notebook left as is",
      [("path", shownPath path), ("language", language)]⟩
  | .scriptCleaned path =>
    some ⟨notebooksTopic, .info, "cleaned python file", [("path", shownPath path)]⟩
  | .unsupported path =>
    some ⟨programTopic, .error, "not a notebook or python file", [("path", shownPath path)]⟩
  | .uncleanable path language =>
    some ⟨programTopic, .error, "could not clean, no formatter",
      [("path", shownPath path), ("language", language)]⟩
  | .failed path failure =>
    some ⟨programTopic, .error, "could not clean: " ++ ": ".intercalate failure.chain,
      [("path", shownPath path)]⟩

/-- A character of a message. -/
def messageChar (c : Char) : List Char :=
  if c = '\x1b' then ['\\', 'x', '1', 'b']
  else if c = '\x07' then ['\\', 'x', '0', '7']
  else if c = '\x08' then ['\\', 'x', '0', '8']
  else if c = '\x0c' then ['\\', 'x', '0', 'c']
  else if c = '\x7f' then ['\\', 'x', '7', 'f']
  else if 0x80 ≤ c.toNat ∧ c.toNat ≤ 0x9f then
    '\\' :: 'u' :: '\x7b' :: Nat.toDigits 16 c.toNat ++ ['\x7d']
  else [c]

def Entry.text (e : Entry) : String :=
  e.level.name ++ " " ++ String.ofList (e.message.toList.flatMap messageChar)
    ++ String.join (e.fields.map fun f => " " ++ f.1 ++ "=" ++ f.2)

end NotebookTidy.Log
