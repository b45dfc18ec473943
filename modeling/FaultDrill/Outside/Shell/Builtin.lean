import FaultDrill.Outside.Files
import FaultDrill.Outside.Shell.Echo
import FaultDrill.Outside.Shell.Expansion
import FaultDrill.Outside.Shell.Test
set_option autoImplicit false

namespace FaultDrill.Outside.Shell
open Command Text Files

/-- What the commands of the shell need of the rest of it. -/
structure Actor where
  world : World
  runText : String → ShellM Nat
  runWords : List String → ShellM Nat

abbrev Builtin : Type := List String → ShellM Nat

def specialBuiltins : List String :=
  [":", ".", "break", "continue", "eval", "exec", "exit", "export", "local", "readonly", "return",
    "set", "shift", "times", "trap", "unset"]

def put (text : String) : ShellM Nat := do
  if ← write 1 text then return 0
  let context := (← get).context
  complain s!"{context}I/O error"
  return 1

def demandNumber (text : String) : ShellM Nat := do
  match Test.number text with
  | .ok value =>
    if 0 ≤ value.toInt ∧ value.toInt ≤ Int32.maxValue.toInt then return value.toInt.toNat
    failWith s!"Illegal number: {text}"
  | .error message => failWith message

def exitCommand : Builtin
  | [] => do throw (.exit (← get).status)
  | status :: _ => do throw (.exit (← demandNumber status))

def returnCommand : Builtin
  | [] => do throw (.returns (← get).status)
  | status :: _ => do throw (.returns (← demandNumber status))

def leaveLoops (stop : Nat → Stop) (arguments : List String) : ShellM Nat := do
  let asked ← match arguments with
    | [] => pure 1
    | count :: _ => demandNumber count
  if asked = 0 then failWith "Illegal number: 0"
  let loops := (← get).loops
  if loops = 0 then return 0
  throw (stop (min asked loops))

def shiftCommand : Builtin := fun arguments => do
  let count ← match arguments with
    | [] => pure 1
    | count :: _ => demandNumber count
  let positionals := (← get).positionals
  if count > positionals.length then failWith "can't shift that many"
  modify fun state => { state with positionals := positionals.drop count }
  return 0

def splitAssignment (argument : String) : String × Option String :=
  let name := String.ofList (argument.toList.takeWhile (· ≠ '='))
  if name.length < argument.length then
    (name, some (String.ofList (argument.toList.drop (name.length + 1))))
  else (name, none)

def markCommand (mark : Parameter → Parameter) : Builtin := fun arguments => do
  let arguments := if arguments.head? == some "--" then arguments.drop 1 else arguments
  for argument in arguments do
    let (name, value) := splitAssignment argument
    if !isName name then failWith s!"{name}: bad variable name"
    if let some value := value then assign name value
    modify fun state =>
      state.set name (mark ((lookup? state name).getD ⟨none, false, false⟩))
  return 0

def unsetCommand : Builtin := fun arguments => do
  let (functions, names) := match arguments with
    | "-f" :: names => (true, names)
    | "-v" :: names => (false, names)
    | names => (false, names)
  for name in names do
    if functions then
      modify fun state =>
        { state with functions := state.functions.filter fun entry => entry.1 != name }
    else
      if !isName name then failWith s!"{name}: bad variable name"
      if (lookup? (← get) name).any Parameter.readOnly then
        failWith s!"{name}: is read only"
      modify fun state => state.erase name
  return 0

def localCommand : Builtin := fun arguments => do
  if (← get).saved.isEmpty then failWith "not in a function"
  for argument in arguments do
    let (name, value) := splitAssignment argument
    let old := lookup? (← get) name
    modify fun state =>
      { state with saved := match state.saved with
        | frame :: frames => ((name, old) :: frame) :: frames
        | [] => [] }
    if let some value := value then assign name value
  return 0

def optionLetter? : String → Option Char
  | "errexit" => some 'e'
  | "nounset" => some 'u'
  | "xtrace" => some 'x'
  | "noglob" => some 'f'
  | "noexec" => some 'n'
  | "verbose" => some 'v'
  | "allexport" => some 'a'
  | "noclobber" => some 'C'
  | "notify" => some 'b'
  | "monitor" => some 'm'
  | _ => none

def setOption (on : Bool) (letter : Char) : ShellM Unit :=
  modify fun state =>
    let others := state.options.filter (· != letter)
    { state with options := if on then others ++ [letter] else others }

def readOptions : List String → ShellM (Option (List String))
  | [] => return none
  | "--" :: rest => return some rest
  | "-" :: rest => return if rest.isEmpty then none else some rest
  | "-o" :: name :: rest | "+o" :: name :: rest => do
    let some letter := optionLetter? name | failWith s!"Illegal option -o {name}"
    setOption true letter
    readOptions rest
  | argument :: rest => do
    match argument.toList with
    | '-' :: letters => switch true letters rest
    | '+' :: letters => switch false letters rest
    | _ => return some (argument :: rest)
where
  switch (on : Bool) (letters : List Char) (rest : List String) :
      ShellM (Option (List String)) := do
    for letter in letters do
      if !"aCefnuvxbmhI".toList.contains letter then
        let sign := if on then "-" else "+"
        failWith s!"Illegal option {sign}{letter}"
      setOption on letter
    readOptions rest

def setCommand : Builtin := fun arguments => do
  if let some positionals := ← readOptions arguments then
    modify fun state => { state with positionals }
  return 0

/-- One line of the input, in which a backslash protects the character after it unless `raw`,
with what is left and whether the line was ended. Protected characters are not split. -/
def takeLine (raw : Bool) : List Char → List Cell × List Char × Bool
  | [] => ([], [], false)
  | '\n' :: rest => ([], rest, true)
  | '\\' :: c :: rest =>
    if raw then
      let (cells, rest, ended) := takeLine raw (c :: rest)
      (.glyph ⟨'\\', false⟩ true :: cells, rest, ended)
    else
      let (cells, rest, ended) := takeLine raw rest
      (if c = '\n' then cells else .glyph ⟨c, true⟩ false :: cells, rest, ended)
  | c :: rest =>
    let (cells, rest, ended) := takeLine raw rest
    (.glyph ⟨c, false⟩ true :: cells, rest, ended)

def shareOut (separators : List Char) (names : Nat) (line : List Cell) : List String :=
  let isSeparator (cell : Cell) := match cell with
    | .glyph glyph splits => splits && separators.contains glyph.char
    | _ => false
  let trimmed := line.dropWhile isSeparator
  match names with
  | 0 | 1 => [plainText (trimmed.reverse.dropWhile isSeparator).reverse]
  | names + 2 =>
    let first := trimmed.takeWhile fun cell => !isSeparator cell
    plainText first ::
      shareOut separators (names + 1) (trimmed.drop first.length)

def readCommand : Builtin := fun arguments => do
  let (raw, names) := match arguments with
    | "-r" :: names => (true, names)
    | names => (false, names)
  if names.isEmpty then failWith "arg count"
  let (line, rest, ended) := takeLine raw (← get).input
  modify fun state => { state with input := rest }
  let values := shareOut (separators (← get)) names.length line
  for (name, value) in names.zip values do
    if !isName name then failWith s!"{name}: bad variable name"
    assign name value
  return if ended then 0 else 1

def lastSignal : Nat := 64

def freeSignals : Nat × Nat := (34, lastSignal)

/-- The names of the free signals count from the nearer end of them. -/
def freeSignalName (number : Nat) : String :=
  let (first, last) := freeSignals
  let counted (name sign : String) (steps : Nat) :=
    if steps = 0 then name else s!"{name}{sign}{steps}"
  if number - first ≤ last - number then counted "RTMIN" "+" (number - first)
  else counted "RTMAX" "-" (last - number)

def signalName (number : Nat) : String :=
  if freeSignals.1 ≤ number then freeSignalName number
  else
    match (Signal.ofNumber? number).filter (· != .stkflt) with
    | some signal => String.ofList (signal.name.toList.drop 3)
    | none => toString number

def signalNumber? (fromZero : Bool) (text : String) : Option Nat :=
  match readDigits? text.toList with
  | some number => if number ≤ lastSignal then some number else none
  | none =>
    let name := text.toUpper
    if fromZero && name == "EXIT" then some 0
    else ((List.range lastSignal).map (· + 1)).find? fun number => signalName number == name

def jobProcess? (jobs : List Nat) (place : List Char) : Option Nat :=
  match place with
  | [] | ['%'] | ['+'] => jobs.getLast?
  | ['-'] => jobs.dropLast.getLast?
  | digits => (readDigits? digits).bind fun number => if number = 0 then none else jobs[number - 1]?

def demandProcess (text : String) : ShellM Nat := do
  match text.toList with
  | '%' :: place =>
    match jobProcess? (← get).jobs place with
    | some process => return process
    | none => failWith s!"No such job: {text}"
  | _ => demandNumber text

def endJob (number process : Nat) : ShellM Unit := do
  if number = 0 || number = Signal.stop.number || harmlessSignals.contains number then return
  modify fun state => { state with
    background := state.background.map fun job =>
      if job.process = process then ⟨process, state.clock, 128 + number⟩ else job
    printed := state.printed.filter fun entry =>
      entry.process ≠ process || entry.clock ≤ state.clock }

/-- Sends a signal to a process. No process leads a group, so that there are no groups to send to;
a job stands for one. -/
def sendTo (number : Nat) (target : String) : ShellM Nat := do
  let isGroup := target.startsWith "%" || target.startsWith "-"
  let process ← demandProcess (if target.startsWith "-" then (target.drop 1).toString else target)
  let state ← get
  let running := state.background.any fun job =>
    job.process == process && state.clock < job.ended
  if isGroup then
    complain "No such process\n"
    return 1
  else if process = state.process then signalShell state.clock number
  else if running then endJob number process
  else if (ancestors state.process).contains process then
    modify fun state => { state with sent := state.sent ++ [⟨state.clock, process, number⟩] }
  else
    complain "No such process\n"
    return 1
  return 0

def killUsage {α : Type} : ShellM α :=
  failWith ("Usage: kill [-s sigspec | -signum | -sigspec] [pid | job]... or\n" ++
    "kill -l [exitstatus]")

def listSignals : List String → ShellM Nat
  | [] =>
    put ("0\n" ++ String.join
      ((List.range lastSignal).map fun number => signalName (number + 1) ++ "\n"))
  | status :: _ => do
    let number ← demandNumber status
    let number := if number > 128 then number - 128 else number
    if 0 < number ∧ number ≤ lastSignal then put (signalName number ++ "\n")
    else failWith s!"invalid signal number or exit status: {status}"

def sendAll (number : Nat) (targets : List String) : ShellM Nat := do
  if targets.isEmpty then killUsage
  let mut status := 0
  for target in targets do
    if (← sendTo number target) ≠ 0 then status := 1
  return status

def killCommand : Builtin
  | [] => killUsage
  | "-l" :: rest => listSignals rest
  | "-s" :: name :: rest => do
    let some number := signalNumber? false name
      | failWith s!"invalid signal number or name: {name}"
    sendAll number rest
  | "--" :: rest => sendAll Signal.term.number rest
  | first :: rest => do
    match first.toList with
    | '-' :: option =>
      match signalNumber? false (String.ofList option) with
      | some number => sendAll number rest
      | none =>
        match option with
        | 's' :: name =>
          let some number := signalNumber? false (String.ofList name)
            | failWith s!"invalid signal number or name: {String.ofList name}"
          sendAll number rest
        | _ => failWith s!"Illegal option -{String.ofList (option.take 1)}"
    | _ => sendAll Signal.term.number (first :: rest)

def setTrap (action : Option String) (number : Nat) : ShellM Unit :=
  modify fun state =>
    let others := state.traps.filter fun entry => entry.1 != number
    { state with traps := match action with
      | some action => others ++ [(number, action)]
      | none => others }

def listTraps : ShellM Nat := do
  let traps := (← get).traps.mergeSort fun a b => a.1 ≤ b.1
  let name (number : Nat) := if number = 0 then "EXIT" else signalName number
  let quote (text : String) := "'" ++ "'\"'\"'".intercalate (text.splitOn "'") ++ "'"
  put (String.join (traps.map fun (number, action) =>
    s!"trap -- {quote action} {name number}\n"))

def trapCommand : Builtin := fun arguments => do
  let arguments := if arguments.head? == some "--" then arguments.drop 1 else arguments
  match arguments with
  | [] => listTraps
  | [single] => setAll none [single]
  | action :: signals => setAll (if action == "-" then none else some action) signals
where
  setAll (action : Option String) : List String → ShellM Nat
    | [] => return 0
    | signal :: rest => do
      match signalNumber? true signal with
      | some number =>
        setTrap action number
        setAll action rest
      | none =>
        let _ ← write 2 s!"trap: {signal}: bad trap\n"
        return 1

def job? (number : Nat) : ShellM (Option BackgroundJob) := do
  let state ← get
  return state.background.find? fun job =>
    job.process == number && state.jobs.contains job.process

/-- Waits for jobs, passing over those that do not exist: the status of the last, or that of a
signal that comes between. -/
def waitFor (status : Nat) : List Nat → ShellM (Except Nat Nat)
  | [] => return .ok status
  | number :: rest => do
    match ← job? number with
    | none => waitFor status rest
    | some job =>
      match ← awaitMoment job.ended with
      | some signal => return .error (128 + signal)
      | none => waitFor job.status rest

def waitCommand : Builtin := fun targets => do
  if targets.isEmpty then
    match ← waitFor 0 (← get).jobs with
    | .ok _ => return 0
    | .error status => return status
  match ← waitFor 127 (← targets.mapM demandProcess) with
  | .ok status | .error status => return status

def changeDirectory (world : World) : Builtin := fun arguments => do
  let state ← get
  let arguments := if arguments.head? == some "--" then arguments.drop 1 else arguments
  let back := arguments.head? == some "-"
  let target := match arguments with
    | [] => (state.value? "HOME").getD state.directory
    | path :: _ => if back then (state.value? "OLDPWD").getD state.directory else path
  let path := resolve state.directory target
  if world.isDirectory path then
    assign "OLDPWD" state.directory
    assign "PWD" path
    modify fun state => { state with directory := path }
    return ← if back then put (path ++ "\n") else pure 0
  failWith s!"can't cd to {target}"

def testCommand (world : World) (words : List String) : ShellM Nat := do
  let state ← get
  let made (path : String) := state.files.any fun entry => entry.1 == resolve state.directory path
  let files : FileView :=
    ⟨fun path => path != "" && world.isDirectory (resolve state.directory path),
      fun path => path != "" && (made path || world.isFile (resolve state.directory path))⟩
  match Test.evaluate files words with
  | .ok value => return if value then 0 else 1
  | .error message => failWith message

def printfCommand : Builtin := fun arguments => do
  match (if arguments.head? == some "--" then arguments.drop 1 else arguments) with
  | [] => failWith "usage: printf format [arg ...]"
  | format :: arguments =>
    let written := printfText format arguments
    written.complaints.forM complain
    if (← put (Utf8.decodeLossy written.bytes)) ≠ 0 then return 1
    return written.status

def plainBuiltin? : String → Option Builtin
  | ":" | "true" | "ulimit" | "jobs" | "times" | "alias" => some fun _ => return 0
  | "false" | "getopts" => some fun _ => return 1
  | "fg" | "bg" => some fun _ => failWith "No current job"
  | "echo" => some fun words => put (echoText words)
  | "printf" => some printfCommand
  | "exit" => some exitCommand
  | "return" => some returnCommand
  | "break" => some (leaveLoops .breaks)
  | "continue" => some (leaveLoops .continues)
  | "shift" => some shiftCommand
  | "export" => some (markCommand fun parameter => { parameter with exported := true })
  | "readonly" => some (markCommand fun parameter => { parameter with readOnly := true })
  | "unset" => some unsetCommand
  | "local" => some localCommand
  | "set" => some setCommand
  | "read" => some readCommand
  | "kill" => some killCommand
  | "trap" => some trapCommand
  | "wait" => some waitCommand
  | "umask" => some fun arguments => if arguments.isEmpty then put "0022\n" else return 0
  | "pwd" => some fun _ => do put ((← get).directory ++ "\n")
  | _ => none

def describeName? (name : String) : ShellM (Option String) := do
  if reservedWords.contains name then return some "a shell keyword"
  if (← get).functions.any fun entry => entry.1 == name then return some "a shell function"
  if specialBuiltins.contains name then return some "a special shell builtin"
  let known := (plainBuiltin? name).isSome ||
    ["test", "[", "cd", "command", "hash", "type"].contains name
  return if known then some "a shell builtin" else none

def programPath? (world : World) (name : String) : Option String :=
  ["/usr/bin/", "/bin/"].map (· ++ name) |>.find? world.isFile

def nameCommand (world : World) (verbose : Bool) (names : List String) : ShellM Nat := do
  let mut status := 0
  for name in names do
    let line := match ← describeName? name, programPath? world name with
      | some what, _ => some (if verbose then s!"{name} is {what}" else name)
      | none, some path => some (if verbose then s!"{name} is {path}" else path)
      | none, none => none
    match line with
    | some line => let _ ← put (line ++ "\n")
    | none =>
      if verbose then let _ ← put s!"{name}: not found\n"
      status := 127
  return status

def builtin? (actor : Actor) (name : String) : Option Builtin :=
  match name with
  | "test" => some (testCommand actor.world)
  | "[" => some fun words => do
    if words.getLast? != some "]" then failWith "missing ]"
    testCommand actor.world words.dropLast
  | "cd" => some (changeDirectory actor.world)
  | "type" => some (nameCommand actor.world true)
  | "hash" => some fun names => do
    for name in names do
      if (← describeName? name).isNone && (programPath? actor.world name).isNone then
        failWith s!"{name}: not found"
    return 0
  | "eval" => some fun words => actor.runText (" ".intercalate words)
  | "." => some fun words => do
    match words with
    | [] => return 0
    | path :: _ => do
      let state ← get
      let whole := resolve state.directory path
      match state.files.find? fun entry => entry.1 == whole with
      | some (_, text) => actor.runText text
      | none =>
        if path.toList.contains '/' && actor.world.isFile whole then return 0
        failWith s!"cannot open {path}: No such file"
  | "command" => some fun words => do
    match words with
    | "-v" :: names => nameCommand actor.world false (names.take 1)
    | "-V" :: names => nameCommand actor.world true (names.take 1)
    | words =>
      let words := match words with
        | "-p" :: rest => rest
        | "--" :: rest => rest
        | rest => rest
      if words.isEmpty then return 0 else actor.runWords words
  | _ => plainBuiltin? name

end FaultDrill.Outside.Shell
