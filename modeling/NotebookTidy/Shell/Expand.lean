import NotebookTidy.Shell.Calculation
import NotebookTidy.Shell.Fields
import NotebookTidy.Shell.Script

/-! What words stand for.

Parameters, the output of commands and integer expressions are replaced by their values. An
error in this ends the shell. -/
namespace NotebookTidy.Shell

/-- Where a tilde stands for a directory. -/
inductive Tilde where
  | nowhere
  | atStart
  /-- Also after colons. -/
  | inList
deriving DecidableEq, Repr

/-- What a word is expanded for. -/
structure Manner where
  /-- For arguments, so that there may be more than one. -/
  fields : Bool
  /-- In quotes as a whole. -/
  quoted : Bool
  tilde : Tilde

def Manner.text : Manner := ⟨false, false, .atStart⟩
def Manner.arguments : Manner := ⟨true, false, .atStart⟩

/-- The home directory of a user, by the lines of the list of users. -/
def homeIn? (user : String) (lines : List (List Char)) : Option String :=
  lines.findSome? fun line =>
    match Text.splitAt ':' line with
    | [name, _, _, _, _, home, _] => if name = user.toList then some (String.ofList home) else none
    | _ => none

/-- The directory that a tilde and a name stand for. -/
def State.home? (s : State) (user : String) : Option String :=
  if user = "" then s.value? "HOME"
  else match s.tree.resolve (pathOf "/etc/passwd") with
    | .ok l => homeIn? user (Text.splitAt '\n' (octetsOf (contentAt s.tree l)))
    | .error _ => none

/-- Replaces a tilde at the start of plain text. `last` says that nothing follows the
text. -/
def expandTilde (s : State) (inList last : Bool) (text : List Char) : List Stretch × List Char :=
  match text with
  | '~' :: rest =>
    let user := rest.takeWhile fun c => c != '/' && !(inList && c == ':')
    let after := rest.drop user.length
    if after.isEmpty && !last then ([], text)
    else match s.home? (String.ofList user) with
      | some home => ([.quoted home], after)
      | none => ([], text)
  | _ => ([], text)

/-- Replaces tildes in plain text, also those after colons. -/
def expandTildes (s : State) (last : Bool) : (fuel : Nat) → List Char → List Stretch
  | 0, _ => []
  | fuel + 1, text =>
    let (home, text) := expandTilde s true last text
    let part := text.takeWhile (· != ':')
    match text.drop part.length with
    | [] => home ++ [.plain (String.ofList part)]
    | _ :: rest =>
      home ++ .plain (String.ofList (part ++ [':'])) :: expandTildes s last fuel rest

def expandPlain (s : State) (m : Manner) (first last : Bool) (text : String) : List Stretch :=
  match m.tilde with
  | .inList => if first then expandTildes s last (text.length + 1) text.toList
    else
      let part := text.toList.takeWhile (· != ':')
      match text.toList.drop part.length with
      | [] => [.plain text]
      | _ :: rest =>
        .plain (String.ofList (part ++ [':'])) :: expandTildes s last (text.length + 1) rest
  | .atStart =>
    if first then
      let (home, rest) := expandTilde s false last text.toList
      home ++ [.plain (String.ofList rest)]
    else [.plain text]
  | .nowhere => [.plain text]

def withoutLastNewlines (bytes : Bytes) : Bytes :=
  (bytes.reverse.dropWhile (· == 10)).reverse

section Expansion
variable (evaluate : Evaluator)

/-- What a command writes, without the newlines at its end. -/
def outputOf (c : Command) : Act String := do
  if c.isEmpty then return ""
  let s ← get
  let (i, t) := s.addChannel (.sink [])
  let t := inSubshell evaluate .plain c (t.connect 1 i)
  set { t with
    descriptors := s.descriptors, channels := t.channels.extract 0 i
    status := if t.isBrokenOff then t.status else s.status, outputStatus := t.status }
  if t.isBrokenOff then failure
  return String.ofList (octetsOf (withoutLastNewlines ((t.written i).filter (· != 0))))

/-- All arguments as one text, with the characters between them that the use needs. -/
def State.allArguments (s : State) (m : Manner) (name : String) (quoted : Bool) : String :=
  if m.fields && (!quoted || name == "@") then "\x00".intercalate s.arguments
  else s.joint.intercalate s.arguments

/-- A value in its place in a word. -/
def State.placed (s : State) (m : Manner) (name value : String) (quoted : Bool) : List Stretch :=
  if name = "@" && quoted && m.fields then
    if s.arguments.isEmpty then [] else [.arguments value]
  else if quoted then [.quoted value]
  else [.split value]

mutual
/-- Expands a word. `plainSplits` says that also its plain text is split. -/
def expandWord (fuel : Nat) (m : Manner) (plainSplits : Bool) (w : Word) : Act (List Stretch) :=
  match fuel with
  | 0 => return []
  | fuel + 1 => expandPieces fuel m plainSplits true w.pieces

def expandPieces (fuel : Nat) (m : Manner) (plainSplits first : Bool) (ps : List Piece) :
    Act (List Stretch) :=
  match fuel with
  | 0 => return []
  | fuel + 1 => do
    match ps with
    | [] => return []
    | .parameter name .last _ word quoted :: _ =>
      let value : Piece := .parameter name .value false (.mk []) quoted
      let here ← expandPiece fuel m plainSplits first false value
      return here ++ (← expandPieces fuel m plainSplits false word.pieces)
    | p :: ps =>
      let here ← expandPiece fuel m plainSplits first ps.isEmpty p
      return here ++ (← expandPieces fuel m plainSplits false ps)

def expandPiece (fuel : Nat) (m : Manner) (plainSplits first last : Bool) (p : Piece) :
    Act (List Stretch) :=
  match fuel with
  | 0 => return []
  | fuel + 1 => do
    match p with
    | .plain text =>
      let ss := expandPlain (← get) m first last text
      if m.quoted then return ss.map fun s => .quoted s.text
      else if plainSplits then
        return ss.map fun s => match s with
          | .plain text => .split text
          | s => s
      else return ss
    | .quoted text => return [.quoted text]
    | .output c quoted =>
      let value ← outputOf evaluate c
      return [if quoted || m.quoted then .quoted value else .split value]
    | .number e quoted =>
      let text := joinText (← expandWord fuel ⟨false, false, .nowhere⟩ false e)
      let value ← calculate text
      return [if quoted || m.quoted then .quoted value else .split value]
    | .parameter name use orEmpty word quoted =>
      let quoted := quoted || m.quoted
      let all := name == "@" || name == "*"
      let s ← get
      let found := if all then some (s.allArguments m name quoted) else s.parameter? name
      let missing := found.isNone || (orEmpty && found == some "")
      let value := found.getD ""
      let needsValue : Act Unit :=
        if found.isNone && s.has 'u' then Act.fail (name ++ ": parameter not set") else pure ()
      let instead := expandWord fuel ⟨m.fields, quoted, .atStart⟩ (m.fields && !quoted) word
      match use with
      | .value =>
        needsValue
        return if found.isSome then s.placed m name value quoted else []
      | .otherwise => if missing then instead else return s.placed m name value quoted
      | .alternative => if missing then return [] else instead
      | .assign =>
        if missing then
          let value := joinText (← expandWord fuel .text false word)
          if isName name then Act.assign name value
          else Act.fail (name ++ ": bad variable name")
          return (← get).placed m name value quoted
        else return s.placed m name value quoted
      | .require =>
        if missing then
          let reason ← if word.pieces.isEmpty then
              pure ("parameter not set" ++ (if orEmpty then " or null" else ""))
            else do pure (joinText (← expandWord fuel .text false word))
          Act.fail (name ++ ": " ++ reason)
        else return s.placed m name value quoted
      | .length =>
        needsValue
        let text := if all then s.joint.intercalate s.arguments else value
        return s.placed m "" (toString text.length) quoted
      | .trimStart longest =>
        needsValue
        if found.isNone then return []
        let p := patternOf (← expandWord fuel .text false word)
        return s.placed m name (String.ofList (p.trimStart longest value.toList)) quoted
      | .trimEnd longest =>
        needsValue
        if found.isNone then return []
        let p := patternOf (← expandWord fuel .text false word)
        return s.placed m name (String.ofList (p.trimEnd longest value.toList)) quoted
      | .unknown | .last => Act.fail "Bad substitution"
end

/-- The text that a word stands for. -/
def expandText (fuel : Nat) (w : Word) : Act String := do
  return joinText (← expandWord evaluate fuel .text false w)

/-- The text that a variable is given. -/
def expandValue (fuel : Nat) (w : Word) : Act String := do
  return joinText (← expandWord evaluate fuel ⟨false, false, .inList⟩ false w)

/-- The arguments that a word stands for. -/
def expandArguments (fuel : Nat) (w : Word) : Act (List String) := do
  let ss ← expandWord evaluate fuel .arguments false w
  let s ← get
  return (fieldsOf s.separators ss).flatMap (argumentsOf s)

/-- The pattern that a word stands for. -/
def expandPattern (fuel : Nat) (w : Word) : Act Pattern := do
  return patternOf (← expandWord evaluate fuel .text false w)

/-- A prompt, or what is shown in front of a command that is traced. If it cannot be expanded,
that is told, and it is shown as it is. -/
def expandPrompt (text : String) (s : State) : String × State :=
  match promptWord s.metEnd text.toList with
  | .error e =>
    let t := { s with line := e.line }.complain ("Syntax error: " ++ e.fault.message)
    (text, { t with metEnd := false, status := 2 })
  | .ok (w, met) =>
    let fuel := 4 * text.length + 4
    let s := { s with metEnd := met }
    match (expandWord evaluate fuel ⟨false, true, .nowhere⟩ false w).run s with
    | (some ss, t) => (joinText ss, t)
    | (none, t) => (text, t)

end Expansion
end NotebookTidy.Shell
