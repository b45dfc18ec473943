import FaultDrill.Command.Job
import FaultDrill.Outside.Shell.Syntax
set_option autoImplicit false

namespace FaultDrill.Outside.Shell
open Command

/-- A parameter; one without a value may still have marks. -/
structure Parameter where
  value : Option String
  exported : Bool
  readOnly : Bool

inductive Outlet where
  | stream (number : Nat)
  | diagnostics
  | nowhere
  | file (path : String)
  deriving DecidableEq

structure BackgroundJob where
  process : Nat
  ended : Nat
  status : Nat

structure Printed where
  clock : Nat
  process : Nat
  text : String

structure State where
  name : String
  context : String := ""
  process : Nat
  acting : Nat
  ignored : List Nat
  parameters : List (String × Parameter)
  positionals : List String
  functions : List (String × Statement)
  status : Nat := 0
  captured : Option Nat := none
  options : List Char := []
  /-- Actions by the number of a signal, 0 standing for the end of the shell. -/
  traps : List (Nat × String) := []
  /-- Inside a subshell the traps of the shell itself. -/
  outerTraps : Option (List (Nat × String)) := none
  pending : List Nat := []
  children : Nat := 0
  lastJob : Option Nat := none
  background : List BackgroundJob := []
  jobs : List Nat := []
  clock : Nat := 0
  printed : List Printed := []
  /-- What has been written to the streams that the shell reads. -/
  collected : List (Nat × String) := []
  streams : Nat := 1
  outlets : List (Nat × Outlet) := [(1, .stream 0), (2, .diagnostics)]
  files : List (String × String) := []
  input : List Char
  directory : String
  saved : List (List (String × Option Parameter)) := []
  savedPositionals : List (List String) := []
  loops : Nat := 0
  line : Nat := 1
  due : List (Nat × Nat) := []
  sent : List SentSignal := []

inductive Stop where
  | exit (status : Nat)
  | failed
  | breaks (levels : Nat)
  | continues (levels : Nat)
  | returns (status : Nat)
  | replaced (ending : JobEnd)
  | killed (number : Nat)
  | endless

abbrev ShellM (α : Type) : Type := ExceptT Stop (StateM State) α

structure World where
  start : String → Start → Except SpawnFailure Course
  isDirectory : String → Bool
  isFile : String → Bool
  isWritable : String → Bool

def lookup? (state : State) (name : String) : Option Parameter :=
  (state.parameters.find? fun entry => entry.1 == name).map Prod.snd

def State.value? (state : State) (name : String) : Option String :=
  (lookup? state name).bind Parameter.value

def State.set (state : State) (name : String) (parameter : Parameter) : State :=
  { state with
    parameters := (name, parameter) :: state.parameters.filter fun entry => entry.1 != name }

def State.erase (state : State) (name : String) : State :=
  { state with parameters := state.parameters.filter fun entry => entry.1 != name }

def State.environment (state : State) : List (String × String) :=
  state.parameters.filterMap fun (name, parameter) =>
    if parameter.exported then parameter.value.map fun value => (name, value) else none

def outlet? (fd : Nat) : ShellM (Option Outlet) := do
  return ((← get).outlets.find? fun entry => entry.1 == fd).map Prod.snd

def collect (number : Nat) (text : String) (collected : List (Nat × String)) :
    List (Nat × String) :=
  let before := ((collected.find? fun entry => entry.1 == number).map Prod.snd).getD ""
  (number, before ++ text) :: collected.filter fun entry => entry.1 != number

def appendFile (path text : String) (files : List (String × String)) : List (String × String) :=
  let before := ((files.find? fun entry => entry.1 == path).map Prod.snd).getD ""
  (path, before ++ text) :: files.filter fun entry => entry.1 != path

def writeAt (clock fd : Nat) (text : String) : ShellM Bool := do
  if text.isEmpty then return true
  match ← outlet? fd with
  | none => return false
  | some (.stream 0) =>
    modify fun state =>
      { state with printed := ⟨clock, state.acting, text⟩ :: state.printed }
  | some (.stream number) =>
    modify fun state => { state with collected := collect number text state.collected }
  | some (.file path) =>
    modify fun state => { state with files := appendFile path text state.files }
  | some .diagnostics | some .nowhere => pure ()
  return true

def write (fd : Nat) (text : String) : ShellM Bool := do writeAt (← get).clock fd text

def complain (message : String) : ShellM Unit := do
  let state ← get
  let _ ← write 2 s!"{state.name}: {state.line}: {state.context}{message}\n"

def failWith {α : Type} (message : String) : ShellM α := do
  complain message
  throw .failed

def assign (name value : String) : ShellM Unit := do
  let old := lookup? (← get) name
  if old.any Parameter.readOnly then failWith s!"{name}: is read only"
  modify fun state =>
    state.set name ⟨some value, old.any Parameter.exported, false⟩

def passTo (moment : Nat) : ShellM Unit :=
  modify fun state => { state with clock := max state.clock moment }

def State.action? (state : State) (number : Nat) : Option String :=
  ((state.outerTraps.getD state.traps).find? fun entry => entry.1 == number).map Prod.snd

/-- The shell gets a signal: it is ignored, trapped, or the shell dies of it or stops. -/
def receive (number : Nat) : ShellM Unit := do
  let state ← get
  let action := state.action? number
  if number = Signal.kill.number then throw (.killed number)
  else if number = Signal.stop.number then throw .endless
  else if number = 0 || state.ignored.contains number || action == some "" then return
  else if action.isSome then
    modify fun state => { state with pending := state.pending ++ [number] }
  else if harmlessSignals.contains number then return
  else throw (.killed number)

def receiveDue : ShellM Unit := do
  let state ← get
  if state.acting ≠ state.process then return
  let (come, due) := state.due.partition fun entry => entry.1 ≤ state.clock
  for (moment, number) in come.mergeSort fun a b => a.1 ≤ b.1 do
    set { ← get with clock := moment, due }
    receive number
  set { ← get with clock := state.clock, due }

def signalShell (moment number : Nat) : ShellM Unit := do
  modify fun state => { state with due := state.due ++ [(moment, number)] }
  receiveDue

/-- Lets time go by up to a moment, unless the action for a signal comes between: the number of
that signal. -/
def awaitMoment (moment : Nat) : ShellM (Option Nat) := do
  let state ← get
  let interrupting := state.due.filter fun (clock, number) =>
    state.clock < clock && clock < moment && (state.action? number).any (· != "")
  let first := (interrupting.mergeSort fun a b => a.1 ≤ b.1).head?
  passTo ((first.map Prod.fst).getD moment)
  receiveDue
  return first.map Prod.snd

end FaultDrill.Outside.Shell
