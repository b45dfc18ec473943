import FaultDrill.Outside.Shell.Builtin
set_option autoImplicit false

namespace FaultDrill.Outside.Shell
open Command Files

inductive Manner where
  | plain
  | tested
  deriving DecidableEq

abbrev Runner : Type := Manner → Statement → ShellM Unit

def setStatus (status : Nat) : ShellM Unit :=
  modify fun state => { state with status := status % 256 }

def attempt {α : Type} (action : ShellM α) : ShellM (Except Stop α) := ExceptT.lift action.run

/-- Does something and afterwards something else, whether the first goes on or not. -/
def ensuring {α : Type} (action : ShellM α) (after : ShellM Unit) : ShellM α := do
  let result ← attempt action
  after
  ExceptT.mk (pure result)

def statusOf : JobEnd → Nat
  | .exited code => code.toNat
  | .failed _ => 1
  | .killed number => 128 + number

def runLines (runner : Runner) : (count : Nat) → Source → ShellM Unit
  | 0, _ => return ()
  | count + 1, source => do
    match readLine source with
    | .error _ =>
      complain "Syntax error"
      throw .failed
    | .ok none => return ()
    | .ok (some (commands, rest)) =>
      if !commands.isEmpty then runner .plain (.sequence commands)
      runLines runner count rest

def runText (runner : Runner) (text : String) : ShellM Nat := do
  let source : Source := ⟨text.toList, 1⟩
  let before := (← get).status
  let hasCommands := text.toList.any fun c => !Arithmetic.isSpace c
  runLines runner (text.length + 1) source
  let after := (← get).status
  setStatus before
  return if hasCommands then after else 0

def runPending (runner : Runner) : ShellM Unit := do
  let state ← get
  if state.outerTraps.isSome then return
  match state.pending with
  | [] => return
  | pending =>
    set { state with pending := [] }
    for number in pending do
      if let some (_, action) := state.traps.find? fun entry => entry.1 == number then
        let _ ← runText runner action

def runExitTrap (runner : Runner) (status : Nat) : ShellM Nat := do
  setStatus status
  match (← get).traps.find? fun entry => entry.1 == 0 with
  | none => return status
  | some (_, action) =>
    modify fun state => { state with traps := state.traps.filter fun entry => entry.1 != 0 }
    match ← attempt (runText runner action) with
    | .ok _ => return status
    | .error (.exit status) => return status
    | .error .failed => return 2
    | .error stop => throw stop

def State.afterSubshell (before after : State) : State :=
  { before with
    clock := after.clock
    printed := after.printed
    collected := after.collected
    streams := after.streams
    files := after.files
    input := after.input
    children := after.children
    pending := after.pending
    background := after.background
    due := after.due
    sent := after.sent }

/-- The state at the beginning of a subshell: only ignored signals stay so. -/
def State.subshell (state : State) : State :=
  { state with
    traps := state.traps.filter fun entry => entry.2 == ""
    outerTraps := some (state.outerTraps.getD state.traps)
    jobs := []
    loops := 0 }

def inSubshell (runner : Runner) (action : ShellM Unit) : ShellM Nat := do
  let before ← get
  set before.subshell
  let result ← attempt action
  let status ← match result with
    | .ok () => runExitTrap runner (← get).status
    | .error (.exit status) => runExitTrap runner status
    | .error .failed => runExitTrap runner 2
    | .error (.returns status) => pure status
    | .error (.replaced ending) => pure (statusOf ending)
    | .error (.breaks _) | .error (.continues _) => pure 0
    | .error stop => throw stop
  set (before.afterSubshell (← get))
  return status % 256

def capture (runner : Runner) (script : List Statement) : ShellM String := do
  let before ← get
  let number := before.streams
  let outlets := before.outlets.filter fun entry => entry.1 != 1
  set { before with streams := number + 1, outlets := (1, .stream number) :: outlets }
  let status ← inSubshell runner (runner .plain (.sequence script))
  let after ← get
  let text := ((after.collected.find? fun entry => entry.1 == number).map Prod.snd).getD ""
  set { after with
    outlets := before.outlets
    captured := some status
    collected := after.collected.filter fun entry => entry.1 != number }
  return text

/-- Runs a command beside the shell. Its time does not pass for the shell. -/
def runInBackground (runner : Runner) (command : Statement) : ShellM Unit := do
  let before ← get
  let process := childNumber before.process before.children
  set { before with children := before.children + 1, acting := process, input := [] }
  let result ← attempt (inSubshell runner (runner .plain command))
  let after ← get
  let job : BackgroundJob ← match result with
    | .ok status => pure ⟨process, after.clock, status⟩
    | .error .endless => pure ⟨process, after.clock + Course.forever, 0⟩
    | .error stop => throw stop
  set { before.afterSubshell after with
    clock := before.clock
    input := before.input
    lastJob := some process
    background := job :: after.background
    jobs := before.jobs ++ [process] }
  setStatus 0

def runPipeline (runner : Runner) (stages : List Statement) : ShellM Unit := do
  let before ← get
  let lastPlace := stages.length - 1
  let mut status := 0
  let mut input := before.input
  let mut ended := before.clock
  for (stage, place) in stages.zipIdx do
    let now ← get
    let number := now.streams
    let outlets := if place = lastPlace then before.outlets
      else (1, .stream number) :: before.outlets.filter fun entry => entry.1 != 1
    set { now with clock := before.clock, streams := number + 1, outlets, input }
    status ← inSubshell runner (runner .plain stage)
    let after ← get
    input := (((after.collected.find? fun entry => entry.1 == number).map Prod.snd).getD "").toList
    ended := max ended after.clock
  modify fun after => { after with
    clock := ended
    outlets := before.outlets
    input := before.input
    collected := after.collected.filter fun entry => entry.1 < before.streams }
  setStatus status

def setOutlet (fd : Nat) (outlet : Option Outlet) : ShellM Unit :=
  modify fun state =>
    let others := state.outlets.filter fun entry => entry.1 != fd
    { state with outlets := match outlet with
      | some outlet => (fd, outlet) :: others
      | none => others }

def descriptorOf? : String → Option Nat
  | "/dev/stdout" | "/dev/fd/1" | "/proc/self/fd/1" => some 1
  | "/dev/stderr" | "/dev/fd/2" | "/proc/self/fd/2" => some 2
  | _ => none

def openForWriting (world : World) (fd : Nat) (empty : Bool) (name : String) : ShellM Bool := do
  let state ← get
  let path := resolve state.directory name
  let refuse (reason : String) : ShellM Bool := do
    complain s!"cannot create {name}: {reason}"
    return false
  match descriptorOf? path with
  | some source =>
    setOutlet fd (← outlet? source)
    return true
  | none =>
    if path == "/dev/null" then
      setOutlet fd (some .nowhere)
      return true
    if name == "" then refuse "Directory nonexistent"
    else if world.isDirectory path then refuse "Is a directory"
    else if !world.isDirectory (parent path) then refuse "Directory nonexistent"
    else if !world.isWritable (parent path) then refuse "Permission denied"
    else
      if empty then
        modify fun state =>
          { state with files := (path, "") :: state.files.filter fun entry => entry.1 != path }
      setOutlet fd (some (.file path))
      return true

def openForReading (world : World) (fd : Nat) (name : String) : ShellM Bool := do
  let state ← get
  let path := resolve state.directory name
  let text? := (state.files.find? fun entry => entry.1 == path).map Prod.snd
  if name == "" || (text?.isNone && !world.isFile path && !world.isDirectory path) then
    complain s!"cannot open {name}: No such file"
    return false
  if fd = 0 then modify fun state => { state with input := (text?.getD "").toList }
  return true

def redirect (world : World) (runner : Runner) : Redirection → ShellM Bool
  | .file fd mode target => do
    let name ← textOf (capture runner) target
    match mode with
    | .read | .both => openForReading world fd name
    | .write => openForWriting world fd true name
    | .append => openForWriting world fd false name
  | .copy fd target => do
    let text ← textOf (capture runner) target
    match text.toList with
    | ['-'] =>
      setOutlet fd none
      return true
    | [c] =>
      match Text.digit? 10 c with
      | some source =>
        match ← outlet? source with
        | some outlet =>
          setOutlet fd (some outlet)
          return true
        | none =>
          if source = 0 then return true
          complain s!"{source}: Bad file descriptor"
          return false
      | none => failWith "Bad fd number"
    | _ => failWith "Bad fd number"
  | .text fd body => do
    let text ← textOf (capture runner) body
    if fd = 0 then modify fun state => { state with input := text.toList }
    return true

def redirectAll (world : World) (runner : Runner) : List Redirection → ShellM Bool
  | [] => return true
  | one :: rest => do
    if ← redirect world runner one then redirectAll world runner rest else return false

def withRedirections {α : Type} (world : World) (runner : Runner) (list : List Redirection)
    (action : ShellM α) : ShellM (Option α) := do
  let before ← get
  let restore : ShellM Unit := modify fun state =>
    { state with
      outlets := before.outlets
      input := if list.isEmpty then state.input else before.input }
  ensuring (do if ← redirectAll world runner list then some <$> action else return none) restore

def withAssignments {α : Type} (capture : Capture) (assignments : List (String × Word))
    (action : ShellM α) : ShellM α := do
  let before ← get
  for (name, word) in assignments do
    assign name (← textOf capture word)
    modify fun state =>
      state.set name { (lookup? state name).getD ⟨none, true, false⟩ with exported := true }
  ensuring action (assignments.forM fun (name, _) =>
    modify fun state => match lookup? before name with
      | some old => state.set name old
      | none => state.erase name)

def assignAll (capture : Capture) (assignments : List (String × Word)) : ShellM Unit := do
  for (name, word) in assignments do assign name (← textOf capture word)

def followCourse (course : Course) : ShellM Unit := do
  let started := (← get).clock
  for (clock, text) in course.printed do
    let _ ← writeAt (started + clock) 1 text
  for signal in course.sent do
    if signal.process = (← get).process then signalShell (started + signal.clock) signal.number
    else
      modify fun state =>
        { state with sent := state.sent ++ [{ signal with clock := started + signal.clock }] }
  passTo (started + course.ended)
  receiveDue
  if course.ended ≥ Course.forever then throw .endless

def startOf (state : State) (arguments : List String) (process : Nat) : Start where
  arguments := arguments
  environment := state.environment
  input := String.ofList state.input
  ignored := state.ignored ++
    (state.traps.filter fun entry => entry.2 == "").map Prod.fst
  process := process

def spawnStatus (failure : SpawnFailure) : String × Nat :=
  match failure with
  | .refused .notPermitted => ("Permission denied", 126)
  | _ => ("not found", 127)

def runProgram (world : World) (replaces : Bool) (name : String) (arguments : List String) :
    ShellM Nat := do
  let state ← get
  let process := if replaces then state.process else childNumber state.process state.children
  match world.start name (startOf state arguments process) with
  | .error failure =>
    let (reason, status) := spawnStatus failure
    complain s!"{name}: {reason}"
    return status
  | .ok course =>
    modify fun state => { state with children := state.children + 1 }
    followCourse course
    if replaces then throw (.replaced course.ending)
    return statusOf course.ending

def mostCalls : Nat := 1000

def callFunction (runner : Runner) (body : Statement) (manner : Manner) (arguments : List String) :
    ShellM Nat := do
  let before ← get
  if before.savedPositionals.length ≥ mostCalls then
    failWith s!"Maximum function recursion depth ({mostCalls}) reached"
  set { before with
    positionals := arguments
    savedPositionals := before.positionals :: before.savedPositionals
    saved := [] :: before.saved
    loops := 0 }
  let restore : ShellM Unit := modify fun state =>
    let frame := state.saved.headD []
    let state := frame.foldl (fun (state : State) (name, old) => match old with
      | some old => state.set name old
      | none => state.erase name) state
    { state with
      positionals := before.positionals
      savedPositionals := before.savedPositionals
      saved := before.saved
      loops := before.loops }
  match ← attempt (ensuring (runner manner body) restore) with
  | .ok () => return (← get).status
  | .error (.returns status) => return status
  | .error stop => throw stop

/-- What goes wrong in an ordinary command of the shell only gives it a status. -/
def guarded (action : ShellM Nat) : ShellM Nat := do
  match ← attempt action with
  | .ok status => return status
  | .error .failed => return 2
  | .error stop => throw stop

def carryOut (name : String) (builtin : Builtin) (arguments : List String) : ShellM Nat := do
  let before := (← get).context
  modify fun state => { state with context := name ++ ": " }
  ensuring (builtin arguments) (modify fun state => { state with context := before })

def runBuiltin (name : String) (builtin : Builtin) (arguments : List String) : ShellM Nat :=
  if name == "command" then builtin arguments
  else if specialBuiltins.contains name then carryOut name builtin arguments
  else guarded (carryOut name builtin arguments)

def runWords (world : World) (runner : Runner) (words : List String) : ShellM Nat := do
  match words with
  | [] => return 0
  | name :: arguments =>
    let deeper : List String → ShellM Nat := fun
      | [] => return 0
      | name :: arguments =>
        match plainBuiltin? name with
        | some builtin => guarded (carryOut name builtin arguments)
        | none => runProgram world false name arguments
    let actor : Actor := ⟨world, runText runner, deeper⟩
    match builtin? actor name with
    | some builtin => runBuiltin name builtin arguments
    | none => runProgram world false name arguments

def runExec (world : World) (runner : Runner) (redirections : List Redirection)
    (arguments : List String) : ShellM Nat := do
  unless ← redirectAll world runner redirections do throw .failed
  match arguments with
  | [] => return 0
  | name :: arguments =>
    throw (.exit (← carryOut "exec" (fun _ => runProgram world true name arguments) []))

def runSimple (world : World) (runner : Runner) (manner : Manner)
    (assignments : List (String × Word)) (words : List Word) (redirections : List Redirection) :
    ShellM Unit := do
  modify fun state => { state with captured := none }
  let capture := capture runner
  let words := (← words.mapM (fields capture)).flatten
  let redirected (action : ShellM Nat) : ShellM (Option Nat) :=
    withRedirections world runner redirections action
  match words with
  | [] =>
    let status ← redirected do
      assignAll capture assignments
      return (← get).captured.getD 0
    setStatus (status.getD 2)
  | name :: arguments =>
    let state ← get
    match (state.functions.find? fun entry => entry.1 == name).map Prod.snd with
    | some body =>
      let status ← redirected
        (withAssignments capture assignments (callFunction runner body manner arguments))
      setStatus (status.getD 2)
    | none =>
      if specialBuiltins.contains name then
        let status ←
          if name == "exec" then do
            assignAll capture assignments
            some <$> runExec world runner redirections arguments
          else redirected do
            assignAll capture assignments
            runWords world runner (name :: arguments)
        let some status := status | throw .failed
        setStatus status
      else
        let status ← redirected
          (withAssignments capture assignments (runWords world runner (name :: arguments)))
        setStatus (status.getD 2)

/-- How often a loop that does not end is gone through. -/
def mostRounds : Nat := 100_000

def round (action : ShellM (Bool × Nat)) : ShellM (Bool × Nat) := do
  match ← attempt action with
  | .ok result => return result
  | .error (.breaks levels) =>
    if levels ≤ 1 then return (false, 0) else throw (.breaks (levels - 1))
  | .error (.continues levels) =>
    if levels ≤ 1 then return (true, 0) else throw (.continues (levels - 1))
  | .error stop => throw stop

/-- Goes round until a round is the last. Time that a person would not wait for is endless. -/
def goRound (action : Nat → ShellM (Bool × Nat)) : (rounds : Nat) → (status : Nat) → ShellM Nat
  | 0, _ => do
    passTo Course.forever
    receiveDue
    throw .endless
  | rounds + 1, status => do
    if (← get).clock ≥ Course.forever then throw .endless
    let (more, status) ← round (action status)
    if more then goRound action rounds status else return status

def insideLoop (action : ShellM Nat) : ShellM Unit := do
  let loops := (← get).loops
  modify fun state => { state with loops := loops + 1 }
  setStatus (← ensuring action (modify fun state => { state with loops }))

def runLoop (runner : Runner) (manner : Manner) (outcome : Bool) (condition body : Statement) :
    ShellM Unit :=
  insideLoop (goRound (fun before => do
    runner .tested condition
    if ((← get).status == 0) == outcome then
      runner manner body
      return (true, (← get).status)
    return (false, before)) mostRounds 0)

def goThrough (action : String → ShellM Unit) : List String → (status : Nat) → ShellM Nat
  | [], status => return status
  | value :: rest, _ => do
    let (more, status) ← round do
      action value
      return (true, (← get).status)
    if more then goThrough action rest status else return status

def runForEach (runner : Runner) (manner : Manner) (name : String) (values : List String)
    (body : Statement) : ShellM Unit :=
  insideLoop (goThrough (fun value => do
    assign name value
    runner manner body) values 0)

def runChoice (runner : Runner) (manner : Manner) (subject : String) :
    List (List Word × Statement) → ShellM Unit
  | [] => setStatus 0
  | (patterns, body) :: rest => do
    let found ← patterns.anyM fun pattern => do
      return (← patternOf (capture runner) pattern).fits subject.toList
    if found then runner manner body else runChoice runner manner subject rest

def runSequence (runner : Runner) (manner : Manner) : List Statement → ShellM Unit
  | [] => setStatus 0
  | [last] => runner manner last
  | first :: rest => do
    runner manner first
    runSequence runner manner rest

def step (world : World) (runner : Runner) (manner : Manner) : Statement → ShellM Unit
  | .simple line assignments words redirections => do
    modify fun state => { state with line }
    runSimple world runner manner assignments words redirections
  | .pipeline stages => runPipeline runner stages
  | .negation command => do
    runner .tested command
    setStatus (if (← get).status = 0 then 1 else 0)
  | .conjunction first second => do
    runner .tested first
    if (← get).status = 0 then runner manner second
  | .disjunction first second => do
    runner .tested first
    if (← get).status ≠ 0 then runner manner second
  | .sequence commands => runSequence runner manner commands
  | .background command => runInBackground runner command
  | .conditional condition yes no => do
    runner .tested condition
    if (← get).status = 0 then runner manner yes else runner manner no
  | .loop outcome condition body => runLoop runner manner outcome condition body
  | .forEach name list body => do
    let values ← match list with
      | some words => do pure (← words.mapM (fields (capture runner))).flatten
      | none => do pure (← get).positionals
    runForEach runner manner name values body
  | .choice word arms => do runChoice runner manner (← textOf (capture runner) word) arms
  | .redirected command redirections => do
    let result ← withRedirections world runner redirections (runner manner command)
    if result.isNone then setStatus 2
  | .subshell command => do
    setStatus (← inSubshell runner (runner manner command))
  | .definition name body => do
    modify fun state =>
      { state with
        functions := (name, body) :: state.functions.filter fun entry => entry.1 != name }
    setStatus 0

def isChecked : Statement → Bool
  | .simple .. | .pipeline _ | .subshell _ | .background _ => true
  | _ => false

/-- Runs a command, and the actions of signals before and after it. -/
def run (world : World) : (depth : Nat) → Manner → Statement → ShellM Unit
  | 0, _, _ => throw (.killed Signal.segv.number)
  | depth + 1, manner, command => do
    let runner := run world depth
    if (← get).options.contains 'n' then return
    receiveDue
    runPending runner
    step world runner manner command
    runPending runner
    let state ← get
    if isChecked command && manner ≠ .tested && state.options.contains 'e' && state.status ≠ 0 then
      throw (.exit state.status)

def mostDepth : Nat := 6000

structure Invocation where
  script : String
  name : String
  positionals : List String
  options : List Char

def firstParameters (start : Start) (directory : String) : List (String × Parameter) :=
  let own (name value : String) := (name, Parameter.mk (some value) (name == "PATH") false)
  let given := start.environment.filterMap fun (name, value) =>
    if isName name then some (name, Parameter.mk (some value) true false) else none
  given ++ [own "OPTIND" "1", own "PS1" "$ ", own "PS2" "> ", own "PS4" "+ ",
    own "PPID" (toString (parentOf start.process)), own "PWD" directory,
    own "PATH" (":".intercalate searchPath)]

def firstState (start : Start) (invocation : Invocation) (directory : String) : State where
  name := invocation.name
  process := start.process
  acting := start.process
  ignored := start.ignored
  parameters := firstParameters start directory
  positionals := invocation.positionals
  functions := []
  options := invocation.options
  input := start.input.toList
  directory := directory

def runScript (world : World) (script : String) : ShellM Nat := do
  let runner := run world mostDepth
  let result ← attempt (runLines runner (script.length + 1) ⟨script.toList, 1⟩)
  match result with
  | .ok () => runExitTrap runner (← get).status
  | .error (.exit status) | .error (.returns status) => runExitTrap runner status
  | .error .failed => runExitTrap runner 2
  | .error (.breaks _) | .error (.continues _) => runExitTrap runner 0
  | .error stop => throw stop

def endingOf (clock : Nat) : Except Stop Nat → Nat × JobEnd
  | .ok status | .error (.exit status) | .error (.returns status) =>
    (clock, .exited (UInt8.ofNat status))
  | .error .failed | .error (.breaks _) | .error (.continues _) => (clock, .exited 2)
  | .error (.replaced ending) => (clock, ending)
  | .error (.killed number) => (clock, .killed number)
  | .error .endless => (Course.forever, .killed Signal.kill.number)

def course (world : World) (directory : String) (start : Start) (invocation : Invocation) :
    Course :=
  let (result, state) := (runScript world invocation.script).run.run
    (firstState start invocation directory)
  let (ended, ending) := endingOf state.clock result
  let printed := state.printed.reverse.map fun entry => (entry.clock, entry.text)
  ⟨(printed.filter fun entry => entry.1 ≤ ended).mergeSort fun a b => a.1 ≤ b.1, [],
    state.sent, ended, ending⟩

end FaultDrill.Outside.Shell
