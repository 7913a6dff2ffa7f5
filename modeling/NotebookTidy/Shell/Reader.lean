import NotebookTidy.Shell.Grammar

/-! Reading a script.

A script is read a line at a time, because a line takes effect before the next one is looked
at. A line goes on as long as a command on it is not complete. A word is read character by
character; what stands in braces, in quotes or in parentheses inside of it follows rules of
its own. The text of a document is read where its line ends. -/
namespace NotebookTidy.Shell

/-! ### Tokens and faults -/

inductive Token where
  | endOfFile
  | newline
  | operator (s : String)
  | keyword (s : String)
  | redirection (descriptor : Nat) (operator : String)
  | word (w : Word)

def keywords : List String :=
  ["!", "case", "do", "done", "elif", "else", "esac", "fi", "for", "if", "in", "then", "until",
    "while", "\x7b", "\x7d"]

def Token.shown : Token → String
  | .endOfFile => "end of file"
  | .newline => "newline"
  | .operator s | .keyword s => "\"" ++ s ++ "\""
  | .redirection _ _ => "redirection"
  | .word _ => "word"

/-- Whether a token is this operator or keyword. -/
def Token.is (t : Token) (s : String) : Bool :=
  match t with
  | .operator o | .keyword o => o == s
  | _ => false

/-- The tokens before which a list of commands may end. -/
def Token.endsList : Token → Bool
  | .endOfFile => true
  | .operator s => s == ")" || s == ";;"
  | .keyword s => ["do", "done", "elif", "else", "esac", "fi", "then", "\x7d"].contains s
  | _ => false

inductive Fault where
  | unexpected (found : String) (expected : Option String)
  | forVariable
  | functionName
  | openQuote
  | openBrace
  | openParentheses
  | openSubstitution
deriving DecidableEq, Repr

/-- Whether a fault is that the text has ended. -/
def Fault.isEnd : Fault → Bool
  | .unexpected found _ => found == Token.endOfFile.shown
  | .forVariable | .functionName => false
  | _ => true

def Fault.message : Fault → String
  | .unexpected found none => found ++ " unexpected"
  | .unexpected found (some expected) => found ++ " unexpected (expecting " ++ expected ++ ")"
  | .forVariable => "Bad for loop variable"
  | .functionName => "Bad function name"
  | .openQuote => "Unterminated quoted string"
  | .openBrace => "Missing '\x7d'"
  | .openParentheses => "Missing '))'"
  | .openSubstitution => "EOF in backquote substitution"

/-! ### The text that is read -/

/-- A document that was announced and is still to come. -/
structure Announced where
  place : Nat
  mark : List Char
  trimsTabs : Bool
  verbatim : Bool

/-- An alias whose text is being read. -/
structure ActiveAlias where
  name : String
  /-- How much there is to read after its text. -/
  after : Nat
  /-- The text ends in a blank, so that the word after it may be an alias, too. -/
  goesOn : Bool

structure Source where
  rest : List Char
  line : Nat
  /-- A token that was read too early. -/
  held : Option Token
  announced : List Announced
  documents : Array Word
  aliases : List (String × String)
  active : List ActiveAlias
  /-- A document was ended by the end of the text. -/
  cutShort : Bool

/-- A fault, the number of its line, and how much of the text was left when it was found. -/
structure Misreading where
  line : Nat
  left : Nat
  fault : Fault
deriving DecidableEq, Repr

abbrev Reader := StateT Source (Except Misreading)

namespace Reader

def fail {α : Type} (f : Fault) : Reader α := do
  let s ← get
  throw ⟨s.line, s.rest.length, f⟩

/-- Characters after lines are joined that end in a backslash, and how many were. -/
def joined : List Char → List Char × Nat
  | '\\' :: '\n' :: cs => let r := joined cs; (r.1, r.2 + 1)
  | cs => (cs, 0)

def joinLines : Reader Unit := modify fun s =>
  let (cs, n) := joined s.rest
  { s with rest := cs, line := s.line + n }

/-- The character that comes next. -/
def peek? : Reader (Option Char) := do
  joinLines
  return (← get).rest.head?

def skip : Reader Unit := modify fun s =>
  match s.rest with
  | c :: cs => { s with rest := cs, line := if c = '\n' then s.line + 1 else s.line }
  | [] => s

/-- Takes a character with which nothing can be done. If it ends a line, this is not
counted. -/
def discard : Reader Unit := modify fun s => { s with rest := s.rest.drop 1 }

/-- Takes a character if it is this one. -/
def takes (c : Char) : Reader Bool := do
  if (← peek?) = some c then skip; return true
  else return false

/-- More steps than there are characters. -/
def steps : Reader Nat := return (← get).rest.length + 2

/-- Reads another text in between, whose lines are counted from this number. -/
def within {α : Type} (text : List Char) (line : Nat) (r : Reader α) : Reader α := do
  let s ← get
  set { s with rest := text, line := line, announced := [] }
  let a ← tryCatch r fun e => throw { e with left := s.rest.length }
  modify fun t => { t with rest := s.rest, line := s.line, held := none
                           announced := s.announced, cutShort := s.cutShort }
  return a

def takeWhileJoined (p : Char → Bool) : (fuel : Nat) → Reader (List Char)
  | 0 => return []
  | fuel + 1 => do
    match ← peek? with
    | some c =>
      if p c then
        skip
        return c :: (← takeWhileJoined p fuel)
      else return []
    | none => return []

end Reader

/-! ### Pieces of words -/

/-- What a text is read as, up to where it ends. -/
inductive Scope where
  | word
  /-- The mark of a document, in which nothing is expanded. -/
  | mark
  /-- Quotes in such a mark. -/
  | markQuotes
  /-- The word in the braces of a parameter. -/
  | brace
  | quotes
  | document
  | expression
deriving DecidableEq, Repr

structure Context where
  scope : Scope
  /-- In double quotes, or where the same rules hold. -/
  quoted : Bool
  inBrace : Bool
  /-- The document that the text stands in. -/
  document : Option Announced

namespace Context

/-- Whether a backslash takes the meaning of a character, and goes away. -/
def escapes (x : Context) (c : Char) : Bool :=
  !x.quoted || c == '\\' || c == '\x60' || c == '$'
    || (c == '"' && !(x.document.isSome && !x.inBrace)) || (c == '\x7d' && x.inBrace)

/-- Whether anything is expanded. -/
def expands (x : Context) : Bool := x.scope != .mark && x.scope != .markQuotes

/-- What is wrong if the text ends in between. -/
def openFault? (x : Context) : Option Fault :=
  match x.scope with
  | .expression => some .openParentheses
  | .quotes | .markQuotes => some (if x.document.isSome then .openBrace else .openQuote)
  | .brace => some (if x.quoted && x.document.isNone then .openQuote else .openBrace)
  | .word | .mark | .document => none

end Context

/-- What stands where a line of a document begins. -/
inductive LineStart where
  /-- The mark of the document, which is taken. -/
  | mark
  /-- Something else. The characters that were taken stand for themselves. -/
  | text (taken : List Char)

/-- How many characters two texts begin with in common. -/
def commonLength : List Char → List Char → Nat
  | a :: as, b :: bs => if a = b then commonLength as bs + 1 else 0
  | _, _ => 0

/-- A line that begins like the mark of a document, but is another one. The byte that shows
this is lost if it is not ASCII. -/
def afterNearMark (mark text : List Char) : List Char :=
  let common := commonLength mark text
  if 0 < common && (text[common]?).any ('\x80' ≤ ·) then text.eraseIdx common else text

/-- Takes the mark of a document if it stands where a line begins, after tabs that may be
left out. A line that ends in a backslash right behind such tabs is not joined, and is not
counted. -/
def Reader.lineStart (d : Announced) : Reader LineStart := do
  if !d.verbatim then joinLines
  let indented := d.trimsTabs && (← get).rest.head? == some '\t'
  if indented then modify fun s => { s with rest := s.rest.dropWhile (· == '\t') }
  let s ← get
  let behind := s.rest.drop d.mark.length
  if d.mark.isPrefixOf s.rest && (behind.isEmpty || behind.head? == some '\n') then
    set { s with rest := behind.drop 1, line := s.line + d.mark.count '\n' + 1 }
    return .mark
  else if indented && !d.verbatim && ['\\', '\n'].isPrefixOf s.rest then
    set { s with rest := s.rest.drop 2 }
    return .text ['\\', '\n']
  else
    set { s with rest := afterNearMark d.mark s.rest }
    return .text []

/-- The same, for the document that a text stands in. -/
def Context.lineStart (x : Context) : Reader LineStart :=
  match x.document with
  | some d => Reader.lineStart d
  | none => return .text []

/-- The text of a document that is taken as it is, up to its mark. -/
def Reader.verbatim (d : Announced) : (fuel : Nat) → Reader (List Char)
  | 0 => return []
  | fuel + 1 => do
    match ← lineStart d with
    | .mark => return []
    | .text taken =>
      let line := (← get).rest.takeWhile (· != '\n')
      modify fun s => { s with rest := s.rest.drop line.length }
      if (← get).rest.isEmpty then
        modify fun s => { s with cutShort := true }
        return taken ++ line
      skip
      return taken ++ line ++ '\n' :: (← verbatim d fuel)

def isBlank (c : Char) : Bool := c == ' ' || c == '\t'

/-- The characters that end a word. -/
def endsWord (c : Char) : Bool :=
  isBlank c || c == '\n' || c == '<' || c == '>' || c == '(' || c == ')' || c == ';' || c == '&'
    || c == '|'

def isSpecialName (c : Char) : Bool :=
  c.isDigit || c == '!' || c == '#' || c == '$' || c == '*' || c == '-' || c == '?' || c == '@'

/-- Puts a character after pieces, which are in reverse. -/
def addPlain (ps : List Piece) (c : Char) : List Piece :=
  match ps with
  | .plain s :: ps => .plain (s.push c) :: ps
  | ps => .plain (String.ofList [c]) :: ps

def addQuoted (ps : List Piece) (cs : List Char) : List Piece :=
  match ps with
  | .quoted s :: ps => .quoted (s ++ String.ofList cs) :: ps
  | ps => .quoted (String.ofList cs) :: ps

def Context.add (x : Context) (ps : List Piece) (c : Char) : List Piece :=
  if x.quoted then addQuoted ps [c] else addPlain ps c

/-- Puts a backslash and what follows it after pieces. The backslash stays only in quotes. -/
def Context.addTaken (x : Context) (ps : List Piece) (taken : List Char) : List Piece :=
  if taken.isEmpty then ps else addQuoted ps (if x.quoted then taken else taken.drop 1)

/-- What is read again from within itself. -/
inductive Part where
  /-- A line of commands. -/
  | line
  /-- One command or more. -/
  | commands
  /-- Any number of commands. -/
  | anyCommands
  | command
deriving DecidableEq, Repr

/-- The name in the braces of a parameter, and whether its length is asked for; none if
there is no name that can be. -/
def Reader.bracedName (fuel : Nat) : Reader (Option (String × Bool)) := do
  let name (fuel : Nat) : Reader (Option String) := do
    match ← peek? with
    | some c =>
      if startsName c then return some (String.ofList (← takeWhileJoined continuesName fuel))
      else if c.isDigit then return some (String.ofList (← takeWhileJoined Char.isDigit fuel))
      else return none
    | none => return none
  match ← name fuel with
  | some s => return some (s, false)
  | none =>
    match ← peek? with
    | none | some '\x7d' => return none
    | some '#' =>
      skip
      match ← name fuel with
      | some s => return some (s, true)
      | none =>
        match ← peek? with
        | none => return some ("#", false)
        | some c =>
          if c = '\x7d' then return some ("#", false)
          else
            let before ← get
            skip
            if (← peek?) = some '\x7d' then
              if isSpecialName c then return some (String.ofList [c], true)
              else return none
            else
              set before
              return some ("#", false)
    | some c =>
      discard
      if isSpecialName c then return some (String.ofList [c], false) else return none

/-- What is asked of a parameter, after its name: also whether an empty value counts as
missing, and whether that was all. -/
def Reader.use : Reader (Use × Bool × Bool) := do
  let colon ← takes ':'
  match ← peek? with
  | some '\x7d' => skip; return if colon then (.last, false, false) else (.value, false, true)
  | some '-' => skip; return (.otherwise, colon, false)
  | some '+' => skip; return (.alternative, colon, false)
  | some '?' => skip; return (.require, colon, false)
  | some '=' => skip; return (.assign, colon, false)
  | some '#' =>
    skip
    if colon then return (.unknown, true, false)
    else return (.trimStart (← takes '#'), false, false)
  | some '%' =>
    skip
    if colon then return (.unknown, true, false)
    else return (.trimEnd (← takes '%'), false, false)
  | _ => discard; return (.unknown, colon, false)

/-- The script between back quotes, whose backslashes are taken away. -/
def Reader.backQuoted (quoted : Bool) : (fuel : Nat) → Reader (List Char)
  | 0 => fail .openSubstitution
  | fuel + 1 => do
    match ← peek? with
    | none => fail .openSubstitution
    | some '\x60' => skip; return []
    | some '\\' =>
      skip
      match (← get).rest with
      | [] => fail .openSubstitution
      | c :: _ =>
        skip
        let cs ← backQuoted quoted fuel
        return if c = '\\' ∨ c = '\x60' ∨ c = '$' ∨ (quoted ∧ c = '"') then c :: cs
          else '\\' :: c :: cs
    | some c =>
      skip
      return c :: (← backQuoted quoted fuel)

/-- The text in single quotes. -/
def Reader.singleQuoted (x : Context) : (fuel : Nat) → Reader (List Char)
  | 0 => fail .openQuote
  | fuel + 1 => do
    match (← get).rest with
    | [] => fail (if x.document.isSome then .openBrace else .openQuote)
    | '\'' :: _ => skip; return []
    | c :: _ =>
      skip
      if c = '\n' then
        match ← x.lineStart with
        | .mark => fail .openBrace
        | .text taken => return c :: taken ++ (← singleQuoted x fuel)
      else return c :: (← singleQuoted x fuel)

section Words
variable (again : Part → Reader Command)

mutual
/-- Reads pieces up to the end of their scope. The pieces so far are in reverse; `inner` is
set between quotes inside of quoted braces, `depth` is that of parentheses. -/
def Reader.pieces (x : Context) (fuel : Nat) (inner : Bool) (depth : Nat) (ps : List Piece) :
    Reader (List Piece) :=
  match fuel with
  | 0 => return ps.reverse
  | fuel + 1 => do
    let finish (ps : List Piece) : Reader (List Piece) := do
      match x.openFault? with
      | some f => fail f
      | none => return ps.reverse
    match ← peek? with
    | none =>
      if x.scope = .document then modify fun s => { s with cutShort := true }
      finish ps
    | some c =>
      let literal : Reader (List Piece) := do
        skip
        let ps := x.add ps c
        if c = '\n' then
          match ← x.lineStart with
          | .mark => finish ps
          | .text taken => pieces x fuel inner depth (x.addTaken ps taken)
        else pieces x fuel inner depth ps
      if (x.scope = .word ∨ x.scope = .mark) ∧ endsWord c then return ps.reverse
      else if c = '\\' then
        skip
        match (← get).rest with
        | [] => pieces x fuel inner depth (addQuoted ps ['\\'])
        | e :: _ =>
          skip
          pieces x fuel inner depth (addQuoted ps (if x.escapes e then [e] else ['\\', e]))
      else if c = '\'' ∧ !x.quoted then
        skip
        pieces x fuel inner depth (addQuoted ps (← singleQuoted x (← steps)))
      else if c = '"' ∧ x.scope ≠ .document ∧ x.scope ≠ .expression then
        skip
        if x.scope = .quotes ∨ x.scope = .markQuotes then return ps.reverse
        else if x.quoted then pieces x fuel (!inner) depth (addQuoted ps [])
        else
          let scope : Scope := if x.scope = .mark then .markQuotes else .quotes
          let inside ← pieces ⟨scope, true, x.scope = .brace, x.document⟩ fuel false 0 []
          match inside with
          | [.parameter "@" .value orEmpty word true] =>
            pieces x fuel inner depth (.parameter "@" .value orEmpty word true :: ps)
          | _ =>
            pieces x fuel inner depth (addQuoted (inside.reverse ++ addQuoted ps []) [])
      else if c = '\x7d' ∧ x.scope = .brace ∧ !inner then
        skip
        return ps.reverse
      else if c = '(' ∧ x.scope = .expression then
        skip
        pieces x fuel inner (depth + 1) (x.add ps c)
      else if c = ')' ∧ x.scope = .expression then
        skip
        if depth > 0 then pieces x fuel inner (depth - 1) (x.add ps c)
        else if ← takes ')' then return ps.reverse
        else pieces x fuel inner depth (x.add ps c)
      else if c = '\x60' ∧ x.expands then
        skip
        let script ← backQuoted x.quoted (← steps)
        let command ← within script 1 (do
          let command ← again .anyCommands
          documents fuel
          return command)
        pieces x fuel inner depth (.output command x.quoted :: ps)
      else if c = '$' ∧ x.expands then
        skip
        match ← dollar x fuel with
        | some p => pieces x fuel inner depth (p :: ps)
        | none => pieces x fuel inner depth (x.add ps c)
      else literal

/-- Reads what follows a dollar sign; none if that stands for itself. -/
def Reader.dollar (x : Context) (fuel : Nat) : Reader (Option Piece) :=
  match fuel with
  | 0 => return none
  | fuel + 1 => do
    match ← peek? with
    | none => return none
    | some '(' =>
      skip
      if ← takes '(' then
        let ps ← pieces ⟨.expression, true, false, x.document⟩ fuel false 0 []
        return some (.number (.mk ps) x.quoted)
      else
        let announced := (← get).announced
        modify fun s => { s with announced := [] }
        let command ← again .anyCommands
        let t := (← get).held.getD .endOfFile
        modify fun s => { s with held := none }
        if !t.is ")" then fail (.unexpected t.shown (some "\")\""))
        let line := (← get).line
        let pending := (← get).announced
        within [] line (do
          modify fun s => { s with announced := pending }
          documents fuel)
        modify fun s => { s with announced := announced }
        return some (.output command x.quoted)
    | some '\x7b' =>
      skip
      let finish (name : String) (use : Use) (orEmpty closed : Bool) : Reader (Option Piece) := do
        if closed then return some (.parameter name use orEmpty (.mk []) x.quoted)
        let trims := match use with
          | .trimStart _ | .trimEnd _ => true
          | _ => false
        let ps ← pieces ⟨.brace, x.quoted && !trims, true, x.document⟩ fuel false 0 []
        return some (.parameter name use orEmpty (.mk ps) x.quoted)
      match ← bracedName (← steps) with
      | none => finish "" .unknown false false
      | some (name, true) =>
        finish name (if (← peek?) = some '\x7d' then .length else .unknown) false false
      | some (name, false) =>
        let (use, orEmpty, closed) ← Reader.use
        finish name use orEmpty closed
    | some c =>
      if startsName c then
        let name ← takeWhileJoined continuesName (← steps)
        return some (.parameter (String.ofList name) .value false (.mk []) x.quoted)
      else if isSpecialName c then
        skip
        return some (.parameter (String.ofList [c]) .value false (.mk []) x.quoted)
      else return none

/-- Reads the documents that were announced. -/
def Reader.documents (fuel : Nat) : Reader Unit :=
  match fuel with
  | 0 => return ()
  | fuel + 1 => do
    match (← get).announced with
    | [] => return ()
    | d :: ds =>
      modify fun s => { s with announced := ds }
      let word ←
        if d.verbatim then pure [Piece.quoted (String.ofList (← verbatim d (← steps)))]
        else match ← lineStart d with
          | .mark => pure []
          | .text taken =>
            let x : Context := ⟨.document, true, false, some d⟩
            pieces x fuel false 0 (x.addTaken [] taken)
      modify fun s => { s with documents := s.documents.setIfInBounds d.place (.mk word) }
      documents fuel
end

/-! ### Tokens -/

/-- Takes blanks and comments, and says what comes then. -/
def Reader.skipBlanks : (fuel : Nat) → Reader (Option Char)
  | 0 => return none
  | fuel + 1 => do
    match ← peek? with
    | some '#' =>
      modify fun s => { s with rest := s.rest.dropWhile (· != '\n') }
      skipBlanks fuel
    | some c => if isBlank c then skip; skipBlanks fuel else return some c
    | none => return none

/-- The operator of a redirection, after its first character. -/
def Reader.redirection (first : Char) : Reader String := do
  let c ← peek?
  if first = '>' then
    match c with
    | some '>' => skip; return ">>"
    | some '|' => skip; return ">|"
    | some '&' => skip; return ">&"
    | _ => return ">"
  else
    match c with
    | some '<' => skip; return if ← takes '-' then "<<-" else "<<"
    | some '&' => skip; return "<&"
    | some '>' => skip; return "<>"
    | _ => return "<"

/-- Reads a word, or a redirection: a word of at most a digit before its sign is the number
of the descriptor. -/
def Reader.wordToken (scope : Scope) : Reader Token := do
  let ps ← pieces again ⟨scope, false, false, none⟩ (← steps) false 0 []
  let redirect (given : Option Nat) : Reader Token := do
    match (← get).rest with
    | '>' :: _ => skip; return .redirection (given.getD 1) (← redirection '>')
    | '<' :: _ => skip; return .redirection (given.getD 0) (← redirection '<')
    | _ => return .word (.mk ps)
  match ps with
  | [] => redirect none
  | [.plain s] =>
    match s.toList with
    | [c] => if c.isDigit then redirect (some (c.toNat - '0'.toNat)) else return .word (.mk ps)
    | _ => return .word (.mk ps)
  | _ => return .word (.mk ps)

/-- Reads the next token as it stands. -/
def Reader.rawToken (scope : Scope) : Reader Token := do
  let operator (c : Char) : Reader Token := do
    skip
    if ← takes c then return .operator (String.ofList [c, c])
    else return .operator (String.ofList [c])
  match (← get).held with
  | some t => modify fun s => { s with held := none }; return t
  | none =>
    match ← skipBlanks (← steps) with
    | none => return .endOfFile
    | some '\n' => skip; return .newline
    | some '&' => operator '&'
    | some '|' => operator '|'
    | some ';' => operator ';'
    | some '(' => skip; return .operator "("
    | some ')' => skip; return .operator ")"
    | some _ => wordToken again scope

/-- What a token may be, besides a word. -/
structure Expectation where
  newlines : Bool
  keywords : Bool
  aliases : Bool

namespace Expectation

def plain : Expectation := ⟨false, false, false⟩

/-- At the start of a command. -/
def command : Expectation := ⟨false, true, true⟩

/-- At the start of a command, or some lines before it. -/
def anywhere : Expectation := ⟨true, true, true⟩

/-- The first word of a simple command. -/
def name : Expectation := ⟨false, false, true⟩

/-- A pattern, or the end of all clauses. -/
def pattern : Expectation := ⟨true, true, false⟩

end Expectation

/-- Puts the text of an alias in front of what is still to be read. -/
def Reader.useAlias (name text : String) : Reader Unit := modify fun s =>
  { s with rest := text.toList ++ s.rest
           active := ⟨name, s.rest.length, (text.toList.getLast?).any isBlank⟩ :: s.active }

/-- The text that a word is an alias of. An alias does not stand for itself within its own
text. -/
def Reader.aliasText? (name : String) : Reader (Option String) := do
  let s ← get
  if s.active.any (·.name == name) then return none
  return (s.aliases.find? (·.1 == name)).map Prod.snd

/-- Goes to the next token, and leaves the aliases whose text ends before it. Whether one of
them lets the token be an alias. -/
def Reader.leaveAliases : Reader Bool := do
  let _ ← skipBlanks (← steps)
  let s ← get
  let (active, left) := s.active.partition fun a => a.after < s.rest.length
  set { s with active := active }
  return left.any ActiveAlias.goesOn

/-- The most texts of aliases through which one token is looked for. -/
def longestAliasChain : Nat := 1000

/-- Reads a token, going through newlines and aliases. -/
def Reader.tokenFrom (e : Expectation) : (fuel : Nat) → Reader Token
  | 0 => rawToken again .word
  | fuel + 1 => do
    let held := (← get).held.isSome
    let follows ← if held then pure false else leaveAliases
    match ← rawToken again .word with
    | .newline =>
      if e.newlines then
        documents again (← steps)
        tokenFrom e fuel
      else return .newline
    | t@(.word w) =>
      match w.plain? with
      | none => return t
      | some s =>
        if e.keywords && keywords.contains s then return .keyword s
        else if (e.aliases || follows) && !held then
          match ← aliasText? s with
          | some text => useAlias s text; tokenFrom e fuel
          | none => return t
        else return t
    | t => return t

/-- Reads a token. -/
def Reader.token (e : Expectation) : Reader Token := do
  tokenFrom again e ((← steps) + longestAliasChain)

def Reader.hold (t : Token) : Reader Unit := modify fun s => { s with held := some t }

def Reader.unexpected {α : Type} (t : Token) (expected : Option String) : Reader α :=
  fail (.unexpected t.shown expected)

/-- Reads a token that has to be this one. -/
def Reader.expect (e : Expectation) (s : String) : Reader Unit := do
  let t ← token again e
  if !t.is s then unexpected t (some ("\"" ++ s ++ "\""))

/-! ### Commands -/

def digit? (s : String) : Option Nat :=
  match s.toList with
  | [c] => if c.isDigit then some (c.toNat - '0'.toNat) else none
  | _ => none

/-- Reads what stands behind the sign of a redirection. -/
def Reader.redirected (descriptor : Nat) (operator : String) : Reader Redirection := do
  let document := operator == "<<" || operator == "<<-"
  match ← rawToken again (if document then .mark else .word) with
  | .word w =>
    if document then
      let place := (← get).documents.size
      modify fun s => { s with
        documents := s.documents.push (.mk [])
        announced := s.announced ++
          [⟨place, w.text.toList, operator == "<<-", w.pieces.any Piece.isQuoted⟩] }
      return .document descriptor place
    else match operator with
      | "<" => return .file descriptor .read w
      | ">>" => return .file descriptor .append w
      | ">|" => return .file descriptor .overwrite w
      | "<>" => return .file descriptor .both w
      | "<&" | ">&" => return .same descriptor w
      | _ => return .file descriptor .write w
  | t => unexpected t none

/-- Reads the redirections behind a command. Behind the first of them there is no keyword. -/
def Reader.redirections (e : Expectation) : (fuel : Nat) → Reader (List Redirection)
  | 0 => return []
  | fuel + 1 => do
    match ← token again e with
    | .redirection d operator =>
      let r ← redirected again d operator
      return r :: (← redirections .plain fuel)
    | t => hold t; return []

/-- The names that no function can have. -/
def specialBuiltins : List String :=
  [".", ":", "break", "continue", "eval", "exec", "exit", "export", "local", "readonly",
    "return", "set", "shift", "times", "trap", "unset"]

/-- A simple command in the making, everything in reverse. -/
structure Draft where
  assignments : List Assignment
  words : List Word
  redirections : List Redirection

/-- Reads a simple command, or the definition of a function. -/
def Reader.simple (line : Nat) : (fuel : Nat) → Draft → Reader Command
  | 0, _ => return .sequence []
  | fuel + 1, d => do
    let done : Reader Command :=
      return .simple line d.assignments.reverse d.words.reverse d.redirections.reverse
    match ← token again (if d.words.isEmpty then .name else .plain) with
    | .word w =>
      match d.words, w.assignment? with
      | [], some a => simple line fuel { d with assignments := a :: d.assignments }
      | _, _ => simple line fuel { d with words := w :: d.words }
    | .redirection descriptor operator =>
      let r ← redirected again descriptor operator
      simple line fuel { d with redirections := r :: d.redirections }
    | .operator "(" =>
      match d with
      | ⟨[], [w], []⟩ =>
        expect again .plain ")"
        let name := w.plain?.getD ""
        if !isName name || specialBuiltins.contains name then fail .functionName
        else
          hold (← token again .anywhere)
          return .define name (← again .command)
      | _ => hold (.operator "("); done
    | t => hold t; done

/-- Reads the branches of an alternative up to its end. -/
def Reader.branches : (fuel : Nat) → Reader Command
  | 0 => return .sequence []
  | fuel + 1 => do
    let test ← again .commands
    expect again .plain "then"
    let first ← again .commands
    let t ← token again .plain
    if t.is "elif" then return .choice test first (← branches fuel)
    else if t.is "else" then return .choice test first (← again .commands)
    else
      hold t
      return .choice test first (.sequence [])

/-- Reads words up to the end of their line. -/
def Reader.wordsOfLine : (fuel : Nat) → Reader (List Word)
  | 0 => return []
  | fuel + 1 => do
    match ← token again .plain with
    | .word w => return w :: (← wordsOfLine fuel)
    | .newline => return []
    | t => if t.is ";" then return [] else unexpected t none

/-- Reads the patterns of a clause, the first of them being read already. -/
def Reader.patterns : (fuel : Nat) → Token → Reader (List Word)
  | 0, _ => return []
  | fuel + 1, t => do
    let w := match t with
      | .word w => w
      | .keyword s => .mk [.plain s]
      | _ => .mk []
    let t ← token again .plain
    if t.is "|" then return w :: (← patterns fuel (← token again .plain))
    else if t.is ")" then return [w]
    else unexpected t (some "\")\"")

def Reader.clauses : (fuel : Nat) → Reader (List Clause)
  | 0 => return []
  | fuel + 1 => do
    let t ← token again .pattern
    if t.is "esac" then return []
    else
      let first ← if t.is "(" then token again .plain else pure t
      let patterns ← patterns again (← steps) first
      let body ← again .anyCommands
      let t ← token again .pattern
      if t.is "esac" then return [.mk patterns body]
      else if t.is ";;" then return .mk patterns body :: (← clauses fuel)
      else unexpected t (some "\";;\"")

/-- Reads a command. -/
def Reader.command : Reader Command := do
  let t ← token again .plain
  let line := (← get).line
  match t with
  | .word _ | .redirection _ _ =>
    hold t
    simple again line (← steps) ⟨[], [], []⟩
  | t =>
    let c : Command ←
      if t.is "if" then do
        let c ← branches again (← steps)
        expect again .plain "fi"
        pure c
      else if t.is "while" || t.is "until" then do
        let test ← again .commands
        expect again .plain "do"
        let body ← again .commands
        expect again .plain "done"
        pure (.loop (t.is "while") test body)
      else if t.is "for" then do
        let name := match ← token again .plain with
          | .word w => w.plain?.getD ""
          | _ => ""
        if !isName name then fail .forVariable
        let t ← token again .anywhere
        let words ←
          if t.is "in" then wordsOfLine again (← steps)
          else do
            if !t.is ";" then hold t
            pure [Word.allArguments]
        expect again .anywhere "do"
        let body ← again .commands
        expect again .plain "done"
        pure (.each line name words body)
      else if t.is "case" then do
        match ← token again .plain with
        | .word subject =>
          expect again .anywhere "in"
          pure (.select line subject (← clauses again (← steps)))
        | t => unexpected t (some "word")
      else if t.is "(" then do
        let body ← again .commands
        expect again .plain ")"
        pure (.subshell line body [])
      else if t.is "\x7b" then do
        let body ← again .commands
        expect again .plain "\x7d"
        pure body
      else unexpected t none
    match ← redirections again .command (← steps) with
    | [] => return c
    | rs =>
      match c with
      | .subshell line body _ => return .subshell line body rs
      | c => return .redirected line c rs

/-- Reads the commands of a pipeline that come after the first one. -/
def Reader.pipeTail : (fuel : Nat) → Reader (List Command)
  | 0 => return []
  | fuel + 1 => do
    let t ← token again .plain
    if t.is "|" then
      hold (← token again .anywhere)
      let c ← command again
      return c :: (← pipeTail fuel)
    else
      hold t
      return []

def Reader.pipeline : Reader Command := do
  let t ← token again .plain
  let negated := t.is "!"
  hold (← if negated then token again .command else pure t)
  let first ← command again
  let c := match ← pipeTail again (← steps) with
    | [] => first
    | cs => .pipeline (first :: cs)
  return if negated then .negation c else c

def Reader.andOrTail : (fuel : Nat) → Command → Reader Command
  | 0, c => return c
  | fuel + 1, c => do
    let t ← token again .plain
    if t.is "&&" || t.is "||" then
      hold (← token again .anywhere)
      let next ← pipeline again
      andOrTail fuel (if t.is "&&" then .both c next else .either c next)
    else
      hold t
      return c

def Reader.andOr : Reader Command := do
  andOrTail again (← steps) (← pipeline again)

/-- Reads commands, those so far being in reverse. -/
def Reader.listFrom (kind : Part) : (fuel : Nat) → (mayEnd : Bool) → List Command → Reader Command
  | 0, _, cs => return .sequence cs.reverse
  | fuel + 1, mayEnd, cs => do
    let t ← token again ⟨kind ≠ .line, true, true⟩
    match t with
    | .newline => documents again (← steps); return .sequence cs.reverse
    | .endOfFile =>
      documents again (← steps)
      hold t
      return .sequence cs.reverse
    | t =>
      hold t
      if mayEnd && t.endsList then return .sequence cs.reverse
      else
        let c ← andOr again
        let t ← token again .plain
        let mayEnd := kind ≠ .line
        let c := if t.is "&" then .background c else c
        match t with
        | .endOfFile =>
          documents again (← steps)
          hold t
          return .sequence (c :: cs).reverse
        | .newline => hold t; listFrom kind fuel mayEnd (c :: cs)
        | t =>
          if t.is "&" || t.is ";" then listFrom kind fuel mayEnd (c :: cs)
          else if kind = .line then unexpected t none
          else
            hold t
            return .sequence (c :: cs).reverse

end Words

/-- Reads a part of a script, going no deeper than this. -/
def Reader.part : (fuel : Nat) → Part → Reader Command
  | 0, _ => return .sequence []
  | fuel + 1, .command => command (part fuel)
  | fuel + 1, kind => do
    listFrom (part fuel) kind (← steps) (kind = .anyCommands) []

/-- Reads the next line of a script, if there is one. -/
def Reader.line? : Reader (Option Command) := do
  let fuel ← steps
  match ← token (part fuel) .command with
  | .endOfFile => return none
  | t => hold t; return some (← part fuel .line)

/-- A source that has not been read from, with the documents of those before it. -/
def Source.ofText (text : List Char) (documents : Array Word) : Source :=
  ⟨text, 1, none, [], documents, [], [], false⟩

/-- A character that stands for no byte. -/
def noOctet : Char := '\u0100'

/-- A text that is expanded as documents are, or what is wrong with it. If the end of a script
has been `met`, a command in the text meets it again; whether it is still to be met after
that. -/
def promptWord (met : Bool) (text : List Char) : Except Misreading (Word × Bool) :=
  let endless : Announced := ⟨0, [noOctet], false, false⟩
  let fuel := 2 * text.length + 2
  let reading := Reader.pieces (Reader.part fuel) ⟨.document, true, false, some endless⟩ fuel
    false 0 []
  let source := { Source.ofText text #[] with held := if met then some .endOfFile else none }
  (reading.run source).map fun r => (.mk r.1, r.2.held.isSome)

end NotebookTidy.Shell
