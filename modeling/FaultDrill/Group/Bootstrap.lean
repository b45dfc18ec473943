import FaultDrill.Communicator
import FaultDrill.Net.Host
import FaultDrill.Placement
set_option autoImplicit false

/-!
# Bootstrap

How a group comes together. The coordinator accepts connections one after the other and reads
the first frame of each. A join frame of a member that is still missing makes a link; any other
frame, and a connection that closes without one, is rejected and the next connection is
accepted. The coordinator stops at once when nobody is missing. A first read that fails ends the
bootstrap, and one that waits lasts until the timeout.
-/
namespace FaultDrill

/-- A connection as the coordinator finds it: what has arrived, and whether it has been closed. -/
structure Incoming where
  inbox : Inbox
  closed : Bool
  deriving DecidableEq

inductive Gathering where
  | complete (links : List Link)
  | failed (error : ComponentError)
  | expired
  deriving DecidableEq

namespace Bootstrap
open Text

def note (severity : Severity) (rank : Rank) (message : String) : LogEntry :=
  ⟨severity, .group, some rank, message⟩

def insertLink (link : Link) : List Link → List Link
  | [] => [link]
  | first :: rest =>
    if link.peer.index < first.peer.index then link :: first :: rest
    else first :: insertLink link rest

def isMissing (size : UInt32) (links : List Link) (rank : Rank) : Bool :=
  1 ≤ rank.index && rank.index < size && links.all fun link => link.peer ≠ rank

def rejected (peer : String) (frame : Option Frame) : LogEntry :=
  note .warn .coordinator
    s!"⚠️ Rejected connection from {peer}: {inspectOption (frame.map Frame.inspect)}"

/-- Accepts connections until `expected` members have joined. Peers are noted under `peer`. -/
def gather (size : UInt32) (expected : Nat) (peer : String) (links : List Link) :
    List Incoming → Gathering × List LogEntry
  | [] => (if links.length < expected then .expired else .complete links, [])
  | connection :: others =>
    if links.length ≥ expected then (.complete links, [])
    else
      let reject (frame : Option Frame) :=
        let (gathering, notes) := gather size expected peer links others
        (gathering, rejected peer frame :: notes)
      match connection.inbox.arrivals with
      | .fault error :: _ => (.failed error, [])
      | .frame (.join rank) :: rest =>
        if isMissing size links rank then
          let link : Link := { Link.opened rank with inbox := ⟨rest, connection.inbox.tail⟩ }
          let (gathering, notes) := gather size expected peer (insertLink link links) others
          (gathering, note .debug .coordinator s!"🔗 Rank {rank} joined from {peer}" :: notes)
        else reject (some (.join rank))
      | .frame frame :: _ => reject (some frame)
      | [] => if connection.closed then reject none else (.expired, [])

def expectedMembers (size : UInt32) : Nat := size.toNat - 1

/-- The coordinator's side, listening at `address`. The connections are those that are made
before the timeout; with no time at all none is accepted. -/
def acceptMembers (size : UInt32) (timeout : Duration) (address peer : String)
    (connections : List Incoming) : Except GroupError Communicator × List LogEntry :=
  let expected := expectedMembers size
  let start := note .info .coordinator s!"🔊 Waiting for {expected} member(s) on {address}"
  let timely := if timeout.isZero then [] else connections
  let (gathering, notes) := gather size expected peer [] timely
  match gathering with
  | .complete links =>
    (.ok ⟨.coordinator, size, .hub links⟩,
      start :: notes ++ [note .info .coordinator s!"✅ All {expected} member(s) joined"])
  | .failed error => (.error (.component error), start :: notes)
  | .expired =>
    (.error (.connect address s!"Only some members joined within {timeout.inspect}"),
      start :: notes)

def joinDeadline? (now : Moment) (timeout : Duration) : Option Moment := now.add? timeout

def timerTick : Nat := 1_000_000

/-- The nanoseconds between two attempts of a member to connect. It sleeps for 50 milliseconds; as
these do not begin with a tick, the timer goes off at the first one after them. -/
def retryInterval : Nat := 50_000_000 + timerTick

/-- How often a member finds the time not yet over after an attempt that failed. -/
def retries (timeout : Duration) : Nat := (timeout.totalNanos + retryInterval - 1) / retryInterval

/-- A member's side: it connects, says who it is, and has a link to the coordinator. The frame is
the one it sends. A connection that is refused is tried again until the time is over. -/
def join (address : String) (rank : Rank) (size : UInt32) (timeout : Duration)
    (refusal : Option Refusal) : Except GroupError (Communicator × Frame) × List LogEntry :=
  if rank.isCoordinator || rank.index ≥ size then (.error (.invalidRank rank size), [])
  else
    match refusal with
    | none =>
      (.ok (.member rank size, .join rank),
        [note .debug rank s!"🔗 Joined coordinator at {address}"])
    | some refusal =>
      (.error (.connect address s!"Failed to connect to coordinator: {refusal.message}"),
        List.replicate (retries timeout)
          (note .debug rank s!"Coordinator not reachable yet: {refusal.message}"))

structure Entrance where
  result : Except GroupError Communicator
  notes : List LogEntry
  waited : Nat

def memberRefusal (host : Net.Host) (address : Net.SocketAddress) (joined : Bool) :
    Option Refusal :=
  host.connectRefusal address <|> if joined then none else some .connectionRefused

def enterAsCoordinator (host : Net.Host) (placement : Placement) (joined : Bool) : Entrance :=
  match host.listenRefusal placement.address with
  | some refusal =>
    ⟨.error (.connect placement.address.render
      s!"Failed to bind coordinator listener: {refusal.message}"), [], 0⟩
  | none =>
    if joined && host.joins placement.address then ⟨.ok (.coordinator placement.size), [], 0⟩
    else
      let chosen := host.chosen placement.address
      let (result, notes) :=
        acceptMembers placement.size placement.connectTimeout chosen chosen []
      ⟨result, notes, if result.isOk then 0 else placement.connectTimeout.totalNanos⟩

def enterAsMember (host : Net.Host) (placement : Placement) (joined : Bool) : Entrance :=
  let refusal := memberRefusal host placement.address joined
  let (result, notes) :=
    join placement.address.render placement.rank placement.size placement.connectTimeout refusal
  ⟨result.map Prod.fst, notes,
    if refusal.isSome then retries placement.connectTimeout * retryInterval else 0⟩

/-- Brings a process into its group, or fails. A process that is its whole group needs nobody;
otherwise the others are there and take part, if they have `joined`, or nobody is. -/
def connect (host : Net.Host) (placement : Placement) (joined : Bool) : Entrance :=
  if placement.size = 1 then ⟨.ok .alone, [], 0⟩
  else if placement.rank.isCoordinator then enterAsCoordinator host placement joined
  else enterAsMember host placement joined

end Bootstrap
end FaultDrill
