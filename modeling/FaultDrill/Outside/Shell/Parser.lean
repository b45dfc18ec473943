import FaultDrill.Outside.Shell.Syntax
import FaultDrill.Text.Numeral
set_option autoImplicit false

namespace FaultDrill.Outside.Shell
open Text

/-- What is still to be read, and the number of its first line. -/
structure Source where
  rest : List Char
  line : Nat

inductive Malformed where
  | malformed
  deriving DecidableEq

abbrev ParserM (α : Type) : Type := StateT Source (Except Malformed) α

namespace ParserM

def fail {α : Type} : ParserM α := throw .malformed

def peek? : ParserM (Option Char) := return (← get).rest.head?

def advance (count : Nat) : ParserM Unit :=
  modify fun source =>
    ⟨source.rest.drop count, source.line + ((source.rest.take count).filter (· == '\n')).length⟩

def accept (text : String) : ParserM Bool := do
  if text.toList.isPrefixOf (← get).rest then
    advance text.length
    return true
  else return false

def expect (text : String) : ParserM Unit := do
  unless ← accept text do fail

def iterate {α β : Type} (step : α → ParserM (α ⊕ β)) : Nat → α → ParserM β
  | 0, _ => fail
  | count + 1, state => do
    match ← step state with
    | .inl state => iterate step count state
    | .inr result => return result

def repeatedly {α β : Type} (step : α → ParserM (α ⊕ β)) (state : α) : ParserM β := do
  iterate step ((← get).rest.length + 2) state

def takeWhile (p : Char → Bool) : ParserM String := do
  let taken := (← get).rest.takeWhile p
  advance taken.length
  return String.ofList taken

end ParserM
open ParserM

def isNameStart (c : Char) : Bool := c.isAlpha || c == '_'

def isNameChar (c : Char) : Bool := c.isAlphanum || c == '_'

def isName (text : String) : Bool :=
  match text.toList with
  | [] => false
  | c :: rest => isNameStart c && rest.all isNameChar

def isSpecial (c : Char) : Bool := "@*#?-$!".toList.contains c

def endsWord (c : Char) : Bool := " \t\n;&|<>()".toList.contains c

def reservedWords : List String :=
  ["!", "\x7b", "\x7d", "case", "do", "done", "elif", "else", "esac", "fi", "for", "if", "in",
    "then", "until", "while"]

def skipBlanks : ParserM Unit :=
  repeatedly (α := Unit) (fun _ => do
    match (← get).rest with
    | ' ' :: _ | '\t' :: _ =>
      advance 1
      return .inl ()
    | '\\' :: '\n' :: _ =>
      advance 2
      return .inl ()
    | '#' :: _ =>
      let _ ← takeWhile (· ≠ '\n')
      return .inr ()
    | _ => return .inr ()) ()

def skipLines : ParserM Unit :=
  repeatedly (α := Unit) (fun _ => do
    skipBlanks
    if ← accept "\n" then return .inl () else return .inr ()) ()

def plainWord? : ParserM (Option String) := do
  let rest := (← get).rest
  let isPlain (c : Char) := !endsWord c && !"'\"\\$`".toList.contains c
  let word := rest.takeWhile isPlain
  return if (rest.drop word.length).head?.all endsWord && !word.isEmpty then
    some (String.ofList word) else none

def acceptWord (word : String) : ParserM Bool := do
  if (← plainWord?) == some word then
    advance word.length
    return true
  else return false

def expectWord (word : String) : ParserM Unit := do
  unless ← acceptWord word do fail

/-- What a word, or a stretch of one, is read inside of. -/
inductive Surrounding where
  | bare
  | quotes
  | braces (quoted : Bool)
  | brackets (depth : Nat)
  deriving DecidableEq

def Surrounding.isQuoted : Surrounding → Bool
  | bare | braces false => false
  | _ => true

structure Deeper where
  script : ParserM (List Statement)
  parts : Surrounding → ParserM Word
  command : ParserM Statement

def parameterName : ParserM String := do
  match ← peek? with
  | some c =>
    if isNameStart c then takeWhile isNameChar
    else if isDecimalDigit c then takeWhile isDecimalDigit
    else if isSpecial c then
      advance 1
      return c.toString
    else return ""
  | none => fail

def fallbackOf? : Char → Option Fallback
  | '-' => some .use
  | '=' => some .assign
  | '?' => some .demand
  | '+' => some .replace
  | _ => none

def bracedParameter (deeper : Deeper) (quoted : Bool) : ParserM Part := do
  if ← accept "#\x7d" then return .value quoted "#"
  let rest := (← get).rest
  let measures := rest.head? == some '#' &&
    (rest.drop 1).head?.any fun c => isNameChar c || "@*#?$!-".toList.contains c
  if measures then advance 1
  let name ← parameterName
  if measures then
    if name != "" && (← accept "\x7d") then return .length quoted name
    let _ ← deeper.parts (.braces quoted)
    return .malformed
  if name == "" then
    let _ ← deeper.parts (.braces quoted)
    return .malformed
  if ← accept "\x7d" then return .value quoted name
  let colon ← accept ":"
  match (← peek?).bind fallbackOf? with
  | some mode =>
    advance 1
    return .fallback quoted name colon mode (← deeper.parts (.braces quoted))
  | none =>
    let strip (text : String) (atEnd longest : Bool) : ParserM (Option Part) := do
      if colon || !(← accept text) then return none
      return some (.strip quoted name atEnd longest (← deeper.parts (.braces false)))
    if let some part ← strip "%%" true true then return part
    if let some part ← strip "%" true false then return part
    if let some part ← strip "##" false true then return part
    if let some part ← strip "#" false false then return part
    let _ ← deeper.parts (.braces quoted)
    return .malformed

def dollar (deeper : Deeper) (quoted : Bool) : ParserM Part := do
  if ← accept "((" then return .arithmetic quoted (← deeper.parts (.brackets 0))
  if ← accept "(" then
    let script ← deeper.script
    expect ")"
    return .output quoted script
  if ← accept "\x7b" then bracedParameter deeper quoted
  else
    match ← peek? with
    | some c =>
      if isNameStart c then return .value quoted (← takeWhile isNameChar)
      if isDecimalDigit c || isSpecial c then
        advance 1
        return .value quoted c.toString
      return .text quoted "$"
    | none => return .text quoted "$"

def backquoted (quoted : Bool) : ParserM (List Char) :=
  repeatedly (fun (taken : List Char) => do
    match (← get).rest with
    | '`' :: _ =>
      advance 1
      return .inr taken.reverse
    | '\\' :: c :: _ =>
      advance 2
      let protects := c == '$' || c == '`' || c == '\\' || (quoted && c == '"')
      return .inl (if protects then c :: taken else c :: '\\' :: taken)
    | c :: _ =>
      advance 1
      return .inl (c :: taken)
    | [] => fail) []

def separately (script : ParserM (List Statement)) (text : List Char) :
    ParserM (List Statement) := do
  match script.run ⟨text, (← get).line⟩ with
  | .ok (commands, source) => if source.rest.isEmpty then return commands else fail
  | .error _ => fail

def textPart (surrounding : Surrounding) (c : Char) : Part :=
  .text surrounding.isQuoted c.toString

/-- The positional parameters as so many fields, which may be none even between quotes. -/
def isWholeList : Part → Bool
  | .value true "@" => true
  | _ => false

def escaped (surrounding : Surrounding) (c : Char) : List Part :=
  if c == '\n' then []
  else if !surrounding.isQuoted then [.text true c.toString]
  else
    let closes := surrounding = .braces true && c == '\x7d'
    if "$`\"\\".toList.contains c || closes then [.text true c.toString]
    else [.text true (String.ofList ['\\', c])]

/-- One part of a word, or the end of the word. Parts are collected in reverse. -/
def partStep (deeper : Deeper) (state : Surrounding × Word) :
    ParserM ((Surrounding × Word) ⊕ Word) := do
  let (surrounding, parts) := state
  let quoted := surrounding.isQuoted
  let add (more : List Part) : ParserM ((Surrounding × Word) ⊕ Word) :=
    return .inl (surrounding, more.reverse ++ parts)
  let literal (c : Char) := do
    advance 1
    add [textPart surrounding c]
  match (← get).rest with
  | [] => if surrounding = .bare then return .inr parts.reverse else fail
  | '\\' :: [] =>
    advance 1
    add [.text quoted "\\"]
  | '\\' :: c :: _ =>
    advance 2
    add (escaped surrounding c)
  | '$' :: _ =>
    advance 1
    add [← dollar deeper quoted]
  | '`' :: _ =>
    advance 1
    add [.output quoted (← separately deeper.script (← backquoted quoted))]
  | c :: rest =>
    match surrounding, c with
    | .quotes, '"' =>
      advance 1
      return .inr parts.reverse
    | .braces _, '\x7d' =>
      advance 1
      return .inr parts.reverse
    | .brackets 0, ')' =>
      if rest.head? == some ')' then
        advance 2
        return .inr parts.reverse
      else fail
    | .brackets (depth + 1), ')' =>
      advance 1
      return .inl (.brackets depth, .text true ")" :: parts)
    | .brackets depth, '(' =>
      advance 1
      return .inl (.brackets (depth + 1), .text true "(" :: parts)
    | .brackets _, '"' =>
      advance 1
      add []
    | .bare, '\'' | .braces false, '\'' =>
      advance 1
      let text ← takeWhile (· ≠ '\'')
      expect "'"
      add [.text true text]
    | .bare, '"' | .braces _, '"' =>
      advance 1
      let inner ← deeper.parts .quotes
      add (if inner.any isWholeList then inner else .text true "" :: inner)
    | .bare, _ => if endsWord c then return .inr parts.reverse else literal c
    | _, _ => literal c

def readParts (deeper : Deeper) (surrounding : Surrounding) : ParserM Word :=
  repeatedly (partStep deeper) (surrounding, [])

def word (deeper : Deeper) : ParserM Word := do
  let parts ← readParts deeper .bare
  if parts.isEmpty then fail else return parts

def literalText (word : Word) : String :=
  String.join (word.map fun
    | .text _ text => text
    | .value _ name => "$" ++ name
    | _ => "")

def isQuotedWord (word : Word) : Bool :=
  word.any fun
    | .text quoted _ => quoted
    | _ => false

def splitHere (delimiter : String) (tabs : Bool) : List String → List String × List String
  | [] => ([], [])
  | line :: rest =>
    let line := if tabs then String.ofList (line.toList.dropWhile (· == '\t')) else line
    if line == delimiter then ([], rest)
    else
      let (body, rest) := splitHere delimiter tabs rest
      (line :: body, rest)

/-- Takes the input that is written after the present line out of the source. -/
def hereText (deeper : Deeper) (tabs : Bool) : ParserM Word := do
  skipBlanks
  let delimiter ← word deeper
  let source ← get
  let present := source.rest.takeWhile (· ≠ '\n')
  let following := String.ofList (source.rest.drop (present.length + 1))
  let (body, rest) := splitHere (literalText delimiter) tabs (following.splitOn "\n")
  let text := String.join (body.map (· ++ "\n"))
  set (Source.mk (present ++ '\n' :: ("\n".intercalate rest).toList) source.line)
  if isQuotedWord delimiter then return [.text true text]
  match (deeper.parts .quotes).run ⟨text.toList ++ ['"'], source.line⟩ with
  | .ok (parts, _) => return parts
  | .error _ => fail

def redirectionAhead : ParserM (Option (Option Nat)) := do
  match (← get).rest with
  | '<' :: _ | '>' :: _ => return some none
  | d :: '<' :: _ | d :: '>' :: _ => return (digit? 10 d).map some
  | _ => return none

def target (deeper : Deeper) : ParserM Word := do
  skipBlanks
  word deeper

def redirection? (deeper : Deeper) : ParserM (Option Redirection) := do
  match ← redirectionAhead with
  | none => return none
  | some fd? =>
    if fd?.isSome then advance 1
    let input := fd?.getD 0
    let output := fd?.getD 1
    if ← accept "<<-" then return some (.text input (← hereText deeper true))
    if ← accept "<<" then return some (.text input (← hereText deeper false))
    if ← accept "<&" then return some (.copy input (← target deeper))
    if ← accept "<>" then return some (.file input .both (← target deeper))
    if ← accept "<" then return some (.file input .read (← target deeper))
    if ← accept ">>" then return some (.file output .append (← target deeper))
    if ← accept ">&" then return some (.copy output (← target deeper))
    if ← accept ">|" then return some (.file output .write (← target deeper))
    expect ">"
    return some (.file output .write (← target deeper))

def redirections (deeper : Deeper) : ParserM (List Redirection) :=
  repeatedly (fun (found : List Redirection) => do
    skipBlanks
    match ← redirection? deeper with
    | some one => return .inl (found ++ [one])
    | none => return .inr found) []

structure SimpleSoFar where
  assignments : List (String × Word)
  words : List Word
  redirections : List Redirection

def assignmentName? : ParserM (Option String) := do
  let rest := (← get).rest
  let name := String.ofList (rest.takeWhile isNameChar)
  return if isName name && (rest.drop name.length).head? == some '=' then some name else none

def acceptBrackets : ParserM Bool := do
  let source ← get
  skipBlanks
  if ← accept "(" then
    skipBlanks
    expect ")"
    return true
  else
    set source
    return false

def simpleStep (deeper : Deeper) (line : Nat) (so : SimpleSoFar) :
    ParserM (SimpleSoFar ⊕ Statement) := do
  skipBlanks
  if let some one ← redirection? deeper then
    return .inl { so with redirections := so.redirections ++ [one] }
  match ← peek? with
  | none => finish
  | some c =>
    if endsWord c then finish
    else
      let name? ← if so.words.isEmpty then assignmentName? else pure none
      match name? with
      | some name =>
        advance (name.length + 1)
        let value ← readParts deeper .bare
        return .inl { so with assignments := so.assignments ++ [(name, value)] }
      | none =>
        let plain ← plainWord?
        let next ← word deeper
        let isFirst := so.words.isEmpty && so.assignments.isEmpty && so.redirections.isEmpty
        if isFirst then
          if ← acceptBrackets then
            let some name := plain.filter isName | fail
            skipLines
            return .inr (.definition name (← deeper.command))
        return .inl { so with words := so.words ++ [next] }
where
  finish : ParserM (SimpleSoFar ⊕ Statement) := do
    if so.words.isEmpty && so.assignments.isEmpty && so.redirections.isEmpty then fail
    return .inr (.simple line so.assignments so.words so.redirections)

def simpleCommand (deeper : Deeper) : ParserM Statement := do
  repeatedly (simpleStep deeper (← get).line) ⟨[], [], []⟩

def body (deeper : Deeper) : ParserM Statement := do
  match ← deeper.script with
  | [] => fail
  | commands => return .sequence commands

def conditionalRest (deeper : Deeper) : ParserM Statement := do
  let branches ← repeatedly (fun (branches : List (Statement × Statement)) => do
    let condition ← body deeper
    expectWord "then"
    let branches := (condition, ← body deeper) :: branches
    if ← acceptWord "elif" then return .inl branches else return .inr branches) []
  let last ← if ← acceptWord "else" then body deeper else pure .nothing
  expectWord "fi"
  return branches.foldl (fun no (condition, yes) => .conditional condition yes no) last

def doGroup (deeper : Deeper) : ParserM Statement := do
  expectWord "do"
  let commands ← body deeper
  expectWord "done"
  return commands

def wordList (deeper : Deeper) : ParserM (List Word) :=
  repeatedly (fun (words : List Word) => do
    skipBlanks
    match ← peek? with
    | none => return .inr words
    | some c => if endsWord c then return .inr words else return .inl (words ++ [← word deeper])) []

def forLoop (deeper : Deeper) : ParserM Statement := do
  skipBlanks
  let some name := (← plainWord?).filter isName | fail
  advance name.length
  skipLines
  let list ← if ← acceptWord "in" then
      let list ← wordList deeper
      unless (← accept ";") || (← accept "\n") do fail
      pure (some list)
    else
      let _ ← accept ";"
      pure none
  skipLines
  return .forEach name list (← doGroup deeper)

def patterns (deeper : Deeper) : ParserM (List Word) := do
  let _ ← accept "("
  repeatedly (fun (found : List Word) => do
    skipBlanks
    let found := found ++ [← word deeper]
    skipBlanks
    if ← accept "|" then return .inl found
    expect ")"
    return .inr found) []

def caseCommand (deeper : Deeper) : ParserM Statement := do
  skipBlanks
  let subject ← word deeper
  skipLines
  expectWord "in"
  let arms ← repeatedly (fun (arms : List (List Word × Statement)) => do
    skipLines
    if ← acceptWord "esac" then return .inr arms
    let patterns ← patterns deeper
    let commands ← deeper.script
    let arms := arms ++ [(patterns, .sequence commands)]
    skipLines
    if ← accept ";;" then return .inl arms
    expectWord "esac"
    return .inr arms) []
  return .choice subject arms

def compound? (deeper : Deeper) : ParserM (Option Statement) := do
  if ← accept "(" then
    let commands ← body deeper
    expect ")"
    return some (.subshell commands)
  if ← acceptWord "\x7b" then
    let commands ← body deeper
    expectWord "\x7d"
    return some commands
  if ← acceptWord "if" then return some (← conditionalRest deeper)
  if ← acceptWord "while" then
    let condition ← body deeper
    return some (.loop true condition (← doGroup deeper))
  if ← acceptWord "until" then
    let condition ← body deeper
    return some (.loop false condition (← doGroup deeper))
  if ← acceptWord "for" then return some (← forLoop deeper)
  if ← acceptWord "case" then return some (← caseCommand deeper)
  return none

def command (deeper : Deeper) : ParserM Statement := do
  skipBlanks
  match ← compound? deeper with
  | some compound =>
    let redirections ← redirections deeper
    return if redirections.isEmpty then compound else .redirected compound redirections
  | none =>
    if (← plainWord?).any reservedWords.contains then fail
    simpleCommand deeper

def pipeline (deeper : Deeper) : ParserM Statement := do
  skipBlanks
  let negated ← acceptWord "!"
  let stages ← repeatedly (fun (stages : List Statement) => do
    let stages := stages ++ [← command deeper]
    skipBlanks
    if (← get).rest.take 2 == ['|', '|'] then return .inr stages
    if ← accept "|" then
      skipLines
      return .inl stages
    return .inr stages) []
  let whole := match stages with
    | [single] => single
    | _ => .pipeline stages
  return if negated then .negation whole else whole

def junction (deeper : Deeper) : ParserM Statement := do
  let first ← pipeline deeper
  repeatedly (fun (before : Statement) => do
    skipBlanks
    if ← accept "&&" then
      skipLines
      return .inl (.conjunction before (← pipeline deeper))
    if ← accept "||" then
      skipLines
      return .inl (.disjunction before (← pipeline deeper))
    return .inr before) first

def atEnd : ParserM Bool := do
  match (← get).rest with
  | [] | ')' :: _ | ';' :: ';' :: _ => return true
  | _ =>
    return (← plainWord?).any
      ["then", "else", "elif", "fi", "do", "done", "esac", "\x7d"].contains

/-- One command with what separates it from the next, and whether a separator was there. -/
def separated (deeper : Deeper) (found : List Statement) : ParserM (List Statement × Bool) := do
  let next ← junction deeper
  skipBlanks
  if (← get).rest.take 2 == [';', ';'] then return (found ++ [next], false)
  if ← accept ";" then return (found ++ [next], true)
  if ← accept "&" then return (found ++ [.background next], true)
  return (found ++ [next], false)

def commandList (deeper : Deeper) : ParserM (List Statement) :=
  repeatedly (fun (found : List Statement) => do
    skipLines
    if ← atEnd then return .inr found
    let (found, separator) ← separated deeper found
    if separator || (← get).rest.head? == some '\n' then return .inl found
    return .inr found) []

def deeperAt : (depth : Nat) → Deeper
  | 0 => ⟨fail, fun _ => fail, fail⟩
  | depth + 1 =>
    let deeper := deeperAt depth
    ⟨commandList deeper, readParts deeper, command deeper⟩

def line (deeper : Deeper) : ParserM (List Statement) :=
  repeatedly (fun (found : List Statement) => do
    skipBlanks
    match (← get).rest with
    | [] => return .inr found
    | '\n' :: _ =>
      advance 1
      return .inr found
    | _ =>
      let (found, separator) ← separated deeper found
      skipBlanks
      match (← get).rest with
      | [] => return .inr found
      | '\n' :: _ => return .inl found
      | _ => if separator then return .inl found else fail) []

def readLine (source : Source) : Except Malformed (Option (List Statement × Source)) :=
  if source.rest.isEmpty then .ok none
  else ((line (deeperAt (source.rest.length + 1))).run source).map some

end FaultDrill.Outside.Shell
