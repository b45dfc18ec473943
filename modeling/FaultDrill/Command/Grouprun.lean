import FaultDrill.Command.Parallel
set_option autoImplicit false

namespace FaultDrill.Command
open Text

structure Machine extends Surroundings where
  now : Moment
  ownPath : Option String
  directory : String

def Machine.ofHost (host : Net.Host) (greeting : Rank → String) (ownPath : Option String)
    (clockSeed : UInt64) : Machine where
  greeting := greeting
  host := host
  clockSeed := clockSeed
  attempts := KeyStream.length
  now := .ofSeconds 100_000
  ownPath := ownPath
  directory := "/work"

def Machine.freePort (machine : Machine) (ip : Net.Ip) : Except Refusal UInt16 :=
  match machine.host.listenRefusal (.ofIp ip 0) with
  | some refusal => .error refusal
  | none => .ok 49152

/-- A process that breaks off in a computation exits with this code. -/
def abortCode : UInt8 := 101

/-- Starts a program by its name; the first argument says whether the others of its group take
part in what it does. -/
abbrev Starter : Type := Bool → String → Start → Except SpawnFailure Job

def readsHost (text : String) : Bool := (Net.Ip.parse? text.toList).isSome

def readSize? (text : String) : Option UInt32 :=
  (readInteger? 0 (UInt32.size - 1) text.toList).map fun size => UInt32.ofNat size.toNat

def readsSize (text : String) : Bool := (readSize? text).isSome

def launchGrammar : Grammar :=
  ⟨[⟨"size", some 'n', readsSize⟩, ⟨"timeout-secs", none, readsWord64⟩,
    ⟨"host", none, readsHost⟩, logLevel], .trailing⟩

def launcherOf (values : Values) : Launcher :=
  let timeout := (values.option? "timeout-secs").bind fun text =>
    Placement.readWord64? text.toList
  let host := (values.option? "host").bind fun text => Net.Ip.parse? text.toList
  { Launcher.ofSize (((values.option? "size").bind readSize?).getD 1) with
    host := host.getD (.v4 .loopback)
    timeout := timeout.map Duration.ofSeconds }

def startOfRank (start : Start) (placement : Placement) : Start :=
  { start with
    environment := placement.environment ++ start.environment
    input := ""
    process := childNumber start.process placement.rank.index.toNat }

/-- What the processes of all ranks do together. A rank that cannot be placed does nothing. -/
def runRanks (launcher : Launcher) (port : UInt16) (start : Start)
    (job : Start → Except SpawnFailure Job) : JobRun :=
  JobRun.ofGroup launcher.size start.ignoredSignals fun rank =>
    match (launcher.placement port rank).map fun placement => job (startOfRank start placement) with
    | .ok (.ok job) => job
    | _ => .exit 0

def childOf (run : JobRun) (rank : Rank) : Child :=
  let ended := run.ends.find? fun seen => seen.who == rank
  let output := (run.printed.filter fun seen => seen.who == rank).map Sighting.what
  ⟨Utf8.encode (String.join output),
    ended.map fun seen => (seen.clock, (endingOf seen.what).status)⟩

def inTime (launcher : Launcher) (clock : Nat) : Bool :=
  launcher.timeout.all fun timeout => clock < timeout.totalNanos

def lastClock (launcher : Launcher) (run : JobRun) : Nat :=
  let last := (run.ends.map Sighting.clock).foldl max 0
  match launcher.timeout with
  | none => last
  | some timeout => min last timeout.totalNanos

structure Launched where
  exits : Except LaunchFailure (List RankExit)
  printed : List (Nat × String)
  sent : List SentSignal
  ended : Nat

def launch (machine : Machine) (starter : Starter) (launcher : Launcher) (program : String)
    (start : Start) : Launched :=
  let free := machine.freePort launcher.host
  let port := free.toOption.getD 0
  let joined := machine.host.joins (.ofIp launcher.host port)
  let job := starter joined program
  let run := runRanks launcher port start job
  let starting (placement : Placement) :=
    (job (startOfRank start placement)).map fun _ => childOf run placement.rank
  let exits := launcher.run machine.now free program starting
  let printed := run.printed.filter fun seen => inTime launcher seen.clock
  { exits
    printed := printed.map fun seen => (seen.clock, seen.what)
    sent := run.sent.filter fun signal => inTime launcher signal.clock
    ended := lastClock launcher run }

def deadlySignal? (start : Start) (sent : List SentSignal) : Option SentSignal :=
  let passedOver := 0 :: start.ignored ++ harmlessSignals
  let deadly := sent.filter fun signal =>
    signal.process = start.process && !passedOver.contains signal.number
  (deadly.mergeSort fun a b => a.clock ≤ b.clock).head?

/-- What the command does once its arguments have been read. A rank may put an end to it. -/
def launchCourse (start : Start) (launched : Launched) : Course :=
  let sent := launched.sent.filter fun signal => signal.process ≠ start.process
  match launched.exits, deadlySignal? start launched.sent with
  | .error (.refused error), _ => ⟨[], [], [], 0, .failed error.inspect⟩
  | .error .clockOverflow, _ => .instant "" abortCode
  | _, some signal => ⟨launched.printed, [], sent, signal.clock, .killed signal.number⟩
  | .error (.endless _), none =>
    ⟨launched.printed, [], sent, Course.forever, .killed Signal.kill.number⟩
  | .ok exits, none =>
    let described := exits.map fun exit => (launched.ended, exit.describe ++ "\n")
    let code := if exits.all RankExit.success then 0 else 1
    ⟨launched.printed ++ described, [], sent, launched.ended, .exited code⟩

def launchCommand (machine : Machine) (starter : Starter) (start : Start) : Course :=
  match launchGrammar.read start.arguments with
  | .help => .instant Job.helpText 0
  | .fault => .instant "" 2
  | .values values =>
    match values.positionals with
    | [] => .instant "" 2
    | program :: arguments =>
      launchCourse start
        (launch machine starter (launcherOf values) program { start with arguments })

end FaultDrill.Command
