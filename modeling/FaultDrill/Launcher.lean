import FaultDrill.Placement
import FaultDrill.Text.Utf8
set_option autoImplicit false

/-!
# The launcher

Starts one process per rank with the placement of that rank in its environment, waits for all of
them, and reports how each rank ended. An optional timeout bounds the whole group: at the common
deadline every process that is still running is killed.
-/
namespace FaultDrill
open Text

/-- The status that a process leaves behind, as the system encodes it in 32 bits. -/
structure WaitStatus where
  raw : UInt32
  deriving DecidableEq

namespace WaitStatus

def exited (code : UInt8) : WaitStatus := ⟨code.toUInt32 * 256⟩

def killed (signal : Signal) : WaitStatus := ⟨UInt32.ofNat signal.number⟩

def killedBy (number : Nat) : WaitStatus := ⟨UInt32.ofNat (number % 128)⟩

def exitCode? (status : WaitStatus) : Option Nat :=
  if status.raw.toNat % 128 = 0 then some (status.raw.toNat / 256 % 256) else none

def signalNumber? (status : WaitStatus) : Option Nat :=
  let low := status.raw.toNat % 128
  if low = 0 ∨ low = 127 then none else some low

def success (status : WaitStatus) : Bool := status.raw == 0

def describe (status : WaitStatus) : String :=
  match status.exitCode?, status.signalNumber? with
  | some code, _ => s!"exited with code {code}"
  | none, some number =>
    match Signal.ofNumber? number with
    | some signal => s!"terminated by signal {signal}"
    | none => s!"terminated by signal {number}"
  | none, none => "ended with unknown status"

end WaitStatus

structure RankExit where
  rank : Rank
  status : WaitStatus
  output : Option String
  timedOut : Bool
  deriving DecidableEq

namespace RankExit

def success (exit : RankExit) : Bool := exit.status.success

def signal? (exit : RankExit) : Option Signal := exit.status.signalNumber?.bind Signal.ofNumber?

def describe (exit : RankExit) : String :=
  let suffix := if exit.timedOut then " (group timeout)" else ""
  s!"rank {exit.rank}: {exit.status.describe}{suffix}"

end RankExit

/-- A started process: what it prints, and how it ends by itself and how many nanoseconds after
the start; a process may also run for ever. -/
structure Child where
  output : List UInt8
  ending : Option (Nat × WaitStatus)

structure Behaviour where
  print : List UInt8
  /-- A variable whose value is printed last; of the coordinator's address only the host is. -/
  shown : Option String
  status : Option WaitStatus

namespace Behaviour

def value (placement : Placement) (name : String) : String :=
  if name == Placement.addressVariable then placement.address.renderHost
  else (lookupVariable placement.environment name).getD ""

def child (behaviour : Behaviour) (placement : Placement) : Child :=
  let shown := (behaviour.shown.map (value placement)).getD ""
  ⟨behaviour.print ++ Utf8.encode shown, behaviour.status.map fun status => (0, status)⟩

end Behaviour

structure Launcher where
  size : UInt32
  host : Net.Ip
  timeout : Option Duration
  connectTimeout : Duration
  capture : Bool

inductive SpawnFailure where
  | refused (refusal : Refusal)
  | zeroInName
  deriving DecidableEq

def SpawnFailure.message : SpawnFailure → String
  | refused refusal => refusal.message
  | zeroInName => "nul byte found in provided data"

inductive LaunchFailure where
  | refused (error : GroupError)
  | clockOverflow
  | endless (rank : Rank)
  deriving DecidableEq

namespace Launcher

def ofSize (size : UInt32) : Launcher :=
  ⟨size, .v4 .loopback, none, Placement.defaultTimeout, false⟩

/-- The moment at which the group is killed, if it is ever. -/
def deadline? (launcher : Launcher) (now : Moment) : Option (Option Moment) :=
  match launcher.timeout with
  | none => some none
  | some timeout => (now.add? timeout).map some

/-- Output that is not text as a whole is lost. -/
def captured (output : List UInt8) : String :=
  match Utf8.decode output with
  | .ok text => text
  | .error _ => ""

/-- How a rank ends: by itself if that comes before the deadline, otherwise killed at it. Captured
output is read to the end of its pipe once the process has ended, with no regard to the deadline.
Nobody else is taken to hold the pipe, so that it ends with the process. -/
def await (launcher : Launcher) (rank : Rank) (child : Child) : Except LaunchFailure RankExit :=
  let output := if launcher.capture then some (captured child.output) else none
  match child.ending, launcher.timeout with
  | some (_, status), none => .ok ⟨rank, status, output, false⟩
  | some (moment, status), some timeout =>
    if moment < timeout.totalNanos then .ok ⟨rank, status, output, false⟩
    else .ok ⟨rank, .killed .kill, output, true⟩
  | none, some _ => .ok ⟨rank, .killed .kill, output, true⟩
  | none, none => .error (.endless rank)

def placement (launcher : Launcher) (port : UInt16) (rank : Rank) :
    Except GroupError Placement := do
  let placement ← Placement.make rank launcher.size (.ofIp launcher.host port)
  return { placement with connectTimeout := launcher.connectTimeout }

def spawn (launcher : Launcher) (port : UInt16) (program : String)
    (start : Placement → Except SpawnFailure Child) (rank : Rank) :
    Except LaunchFailure Child := do
  let placement ← (launcher.placement port rank).mapError .refused
  match start placement with
  | .ok child => return child
  | .error failure =>
    throw (.refused (.launch rank s!"Failed to spawn {program}: {failure.message}"))

/-- Starts the program once per rank, in rank order, and waits for all of them. The coordinator's
address has a port that is free there, unless the machine refuses to listen. How a process behaves
once it is started is given. -/
def run (launcher : Launcher) (now : Moment) (freePort : Except Refusal UInt16)
    (program : String) (start : Placement → Except SpawnFailure Child) :
    Except LaunchFailure (List RankExit) := do
  if launcher.size = 0 then throw (.refused (.configuration "size" "0"))
  let port ← freePort.mapError fun refusal => .refused (.transfer (.system refusal))
  let some _ := launcher.deadline? now | throw .clockOverflow
  let ranks := Rank.group launcher.size
  let children ← ranks.mapM (launcher.spawn port program start)
  (ranks.zip children).mapM fun (rank, child) => launcher.await rank child

end Launcher
end FaultDrill
