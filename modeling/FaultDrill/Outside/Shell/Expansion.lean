import FaultDrill.Outside.Shell.Arithmetic
import FaultDrill.Outside.Shell.Parser
import FaultDrill.Outside.Shell.Pattern
import FaultDrill.Outside.Shell.State
set_option autoImplicit false

namespace FaultDrill.Outside.Shell
open Command Text

inductive Cell where
  | glyph (glyph : Glyph) (splits : Bool)
  | boundary
  | present
  deriving DecidableEq

/-- Runs a script and gives what it prints. -/
abbrev Capture : Type := List Statement → ShellM String

def cells (quoted splits : Bool) (text : String) : List Cell :=
  text.toList.map fun c => .glyph ⟨c, quoted⟩ splits

/-- The text of an expansion: what is not quoted may be split. -/
def brought (quoted : Bool) (text : String) : List Cell := cells quoted (!quoted) text

def plainText (expanded : List Cell) : String :=
  String.ofList (expanded.filterMap fun
    | .glyph glyph _ => some glyph.char
    | .boundary => some ' '
    | .present => none)

def glyphs (expanded : List Cell) : List Glyph :=
  expanded.filterMap fun
    | .glyph glyph _ => some glyph
    | .boundary => some ⟨' ', true⟩
    | .present => none

def separators (state : State) : List Char :=
  match lookup? state "IFS" with
  | some parameter => (parameter.value.getD "").toList
  | none => [' ', '\t', '\n']

def single? (state : State) (name : String) : Option String :=
  match name with
  | "?" => some (toString state.status)
  | "#" => some (toString state.positionals.length)
  | "$" => some (toString state.process)
  | "!" => state.lastJob.map toString
  | "-" => some (String.ofList state.options)
  | "0" => some state.name
  | _ =>
    match readDigits? name.toList with
    | some (place + 1) => state.positionals[place]?
    | some 0 => some state.name
    | none => state.value? name

def isList (name : String) : Bool := name == "@" || name == "*"

def listCells (state : State) (quoted : Bool) (name : String) : List Cell :=
  let each := state.positionals.map fun text =>
    if quoted then .present :: cells true false text else brought false text
  if quoted && name == "*" then
    let joint := match lookup? state "IFS" with
      | some parameter => String.ofList ((parameter.value.getD "").toList.take 1)
      | none => " "
    cells true false (joint.intercalate state.positionals)
  else ([Cell.boundary].intercalate each : List Cell)

def value? (state : State) (quoted : Bool) (name : String) : Option (List Cell) :=
  if isList name then
    if state.positionals.isEmpty then none else some (listCells state quoted name)
  else (single? state name).map (brought quoted)

def demandValue (quoted : Bool) (name : String) : ShellM (List Cell) := do
  let state ← get
  match value? state quoted name with
  | some found => return found
  | none =>
    if state.options.contains 'u' && !isList name then failWith s!"{name}: parameter not set"
    return []

def calculate (text : String) : ShellM String := do
  let state ← get
  let malformed {α : Type} (reason : String) : ShellM α :=
    failWith s!"arithmetic expression: {reason}: \"{text}\""
  match Arithmetic.parse? text with
  | none => malformed "expecting primary"
  | some expression =>
    let lookup (name : String) := (single? state name).getD ""
    match Arithmetic.evaluate ⟨lookup, []⟩ expression with
    | .error .divisionByZero => malformed "division by zero"
    | .error (.illegalNumber text) => failWith s!"Illegal number: {text}"
    | .error .overflow => throw (.killed Signal.fpe.number)
    | .ok (value, bindings) =>
      bindings.assigned.reverse.forM fun (name, value) => assign name value
      return toString value

def withoutLastLines (text : String) : String :=
  String.ofList (text.toList.reverse.dropWhile (· == '\n')).reverse

def lengthOf (name : String) : ShellM Nat := do
  if isList name then return (← get).positionals.length
  return (plainText (← demandValue true name)).utf8ByteSize

def expandPart (capture : Capture) (deeper : Word → ShellM (List Cell)) :
    Part → ShellM (List Cell)
  | .text quoted text => return if text.isEmpty then [.present] else cells quoted false text
  | .value quoted name => demandValue quoted name
  | .length quoted name => return brought quoted (toString (← lengthOf name))
  | .fallback quoted name orEmpty mode word => do
    let found := (value? (← get) quoted name).filter fun found =>
      !orEmpty || !(plainText found).isEmpty
    let fallback : ShellM (List Cell) := do
      return (← deeper word).map fun
        | .glyph glyph _ => .glyph glyph (!quoted && !glyph.quoted)
        | cell => cell
    match mode, found with
    | .replace, none => return []
    | .replace, some _ | .use, none => fallback
    | .use, some found | .assign, some found | .demand, some found => return found
    | .assign, none =>
      let text := plainText (← deeper word)
      if !isName name then failWith s!"{name}: bad variable name"
      assign name text
      return brought quoted text
    | .demand, none =>
      let text := plainText (← deeper word)
      let usual := if orEmpty then "parameter not set or null" else "parameter not set"
      failWith s!"{name}: {if text.isEmpty then usual else text}"
  | .strip quoted name atEnd longest pattern => do
    let value := (plainText (← demandValue true name)).toList
    let pattern := Pattern.ofGlyphs (glyphs (← deeper pattern))
    let rest := if atEnd then pattern.stripEnd longest value else pattern.stripFront longest value
    return brought quoted (String.ofList rest)
  | .arithmetic quoted body => do
    return brought quoted (← calculate (plainText (← deeper body)))
  | .output quoted script => do
    return brought quoted (withoutLastLines (← capture script))
  | .malformed => failWith "Bad substitution"

/-- What a word comes to, of parts that are nested at most so deep. -/
def expandWord (capture : Capture) : (depth : Nat) → Word → ShellM (List Cell)
  | 0, _ => return []
  | depth + 1, word => do
    return (← word.mapM (expandPart capture (expandWord capture depth))).flatten

def wordDepth : Nat := 1000

def expand (capture : Capture) (word : Word) : ShellM (List Cell) :=
  expandWord capture wordDepth word

/-- What has been split off: the fields so far in reverse, the one that is being read, and whether
only blank separators have come since the last one. -/
structure Splitting where
  fields : List (List Char)
  current : Option (List Char)
  afterBlank : Bool

namespace Splitting

def flush (s : Splitting) : Splitting :=
  match s.current with
  | some field => ⟨field.reverse :: s.fields, none, false⟩
  | none => s

def isBlankSeparator (c : Char) : Bool := c == ' ' || c == '\t' || c == '\n'

def step (separators : List Char) (s : Splitting) : Cell → Splitting
  | .present => { s with current := some (s.current.getD []) }
  | .boundary => s.flush
  | .glyph glyph splits =>
    if splits && separators.contains glyph.char then
      if isBlankSeparator glyph.char then
        if s.current.isSome then { s.flush with afterBlank := true } else s
      else if s.current.isSome then s.flush
      else if s.afterBlank then { s with afterBlank := false }
      else { s with fields := [] :: s.fields }
    else ⟨s.fields, some (glyph.char :: s.current.getD []), false⟩

end Splitting

def splitFields (separators : List Char) (expanded : List Cell) : List String :=
  let s := (expanded.foldl (Splitting.step separators) ⟨[], none, false⟩).flush
  s.fields.reverse.map String.ofList

def fields (capture : Capture) (word : Word) : ShellM (List String) := do
  let expanded ← expand capture word
  return splitFields (separators (← get)) expanded

def textOf (capture : Capture) (word : Word) : ShellM String := do
  return plainText (← expand capture word)

def patternOf (capture : Capture) (word : Word) : ShellM Pattern := do
  return Pattern.ofGlyphs (glyphs (← expand capture word))

end FaultDrill.Outside.Shell
