import FaultDrill.Call
import FaultDrill.Link
set_option autoImplicit false

/-!
# Communicators

How a participant carries out its calls. The group is a star: the coordinator has one link to
each member, and a member one to the coordinator. A call is a program over links, which sends
frames and waits for them, so that where it waits others can go on.

A barrier is entered by a frame to the coordinator and left by a frame from it. The coordinator
hears everybody before it releases anybody. A member found to have left is passed over.
-/
namespace FaultDrill

inductive Exchange where
  | send (peer : Rank) (frame : Frame)
  | take (peer : Rank) (wanted : Wanted)
  | hangUp
  | note (entry : LogEntry)

abbrev Exchange.Answer : Exchange → Type
  | send .. => Sent
  | take .. => Taken
  | hangUp | note _ => Unit

def Exchange.interface : Interface := ⟨Exchange, Exchange.Answer⟩

abbrev Conduct (α : Type) : Type := Program Exchange.interface α

/-- The links of a participant. The coordinator's are in the order of the members' ranks. -/
inductive Topology where
  | alone
  | hub (links : List Link)
  | spoke (link : Link)
  deriving DecidableEq

namespace Topology

def links : Topology → List Link
  | alone => []
  | hub links => links
  | spoke link => [link]

def mapLinks (f : Link → Link) : Topology → Topology
  | alone => alone
  | hub links => hub (links.map f)
  | spoke link => spoke (f link)

def link? (topology : Topology) (peer : Rank) : Option Link :=
  topology.links.find? fun link => link.peer == peer

def setLink (topology : Topology) (link : Link) : Topology :=
  topology.mapLinks fun old => if old.peer = link.peer then link else old

def role : Topology → String
  | alone => "alone"
  | hub _ => "coordinator"
  | spoke _ => "member"

/-- The peers whose end of the connection has not been seen to close. -/
def livePeers (topology : Topology) : List Rank :=
  (topology.links.filter fun link => link.live).map Link.peer

def departedPeers (topology : Topology) : List Rank :=
  (topology.links.filter fun link => !link.live).map Link.peer

end Topology

structure Communicator where
  rank : Rank
  size : UInt32
  topology : Topology
  deriving DecidableEq

namespace Communicator
open Text

def alone : Communicator := ⟨.coordinator, 1, .alone⟩

def coordinator (size : UInt32) : Communicator :=
  ⟨.coordinator, size, .hub ((Rank.members size).map .opened)⟩

def member (rank : Rank) (size : UInt32) : Communicator :=
  ⟨rank, size, .spoke (.opened .coordinator)⟩

def inspect (c : Communicator) : String :=
  inspectRecord "RealGroupCommunicator" [("rank", c.rank.inspect), ("size", toString c.size),
    ("role", quoted c.topology.role)]

def sendTo (peer : Rank) (frame : Frame) : Conduct Sent :=
  .perform (I := Exchange.interface) (.send peer frame)

def takeFrom (peer : Rank) (wanted : Wanted) : Conduct Taken :=
  .perform (I := Exchange.interface) (.take peer wanted)

def note (severity : Severity) (rank : Rank) (message : String) : Conduct Unit :=
  .perform (I := Exchange.interface) (.note ⟨severity, .group, some rank, message⟩)

/-- Waits for one enter frame from each peer in turn; those who are still there are returned. -/
def collect (me : Rank) : List Rank → Conduct (Except GroupError (List Rank))
  | [] => return .ok []
  | peer :: rest => do
    match ← takeFrom peer .barrierEnter with
    | .failed error => return .error (.component error)
    | .gone =>
      note .warn me s!"⚠️ Rank {peer} left the group before the barrier"
      collect me rest
    | .frame _ => return (← collect me rest).map (peer :: ·)

def sendAll (me : Rank) (frame : Frame) (occasion : String) :
    List Rank → Conduct (Except GroupError Unit)
  | [] => return .ok ()
  | peer :: rest => do
    match ← sendTo peer frame with
    | .failed error => return .error (.component error)
    | .gone =>
      note .warn me s!"⚠️ Rank {peer} left the group {occasion}"
      sendAll me frame occasion rest
    | .delivered => sendAll me frame occasion rest

def hubBarrier (me : Rank) (peers : List Rank) : Conduct (Except GroupError Unit) := do
  match ← collect me peers with
  | .error error => return .error error
  | .ok present => sendAll me .barrierRelease "during barrier release" present

def hubBroadcast (me : Rank) (payload : List UInt8) (peers : List Rank) :
    Conduct (Except GroupError (List UInt8)) := do
  return (← sendAll me (.broadcast payload) "before the broadcast" peers).map fun () => payload

/-- Sends a frame on a link; `lost` is the failure when the other side has gone. -/
def deliver (peer : Rank) (frame : Frame) (lost : GroupError) :
    Conduct (Except GroupError Unit) := do
  match ← sendTo peer frame with
  | .failed error => return .error (.component error)
  | .gone => return .error lost
  | .delivered => return .ok ()

def await (peer : Rank) (wanted : Wanted) (lost : GroupError) :
    Conduct (Except GroupError Frame) := do
  match ← takeFrom peer wanted with
  | .failed error => return .error (.component error)
  | .gone => return .error lost
  | .frame frame => return .ok frame

def payloadOf : Frame → Except GroupError (List UInt8)
  | .data _ payload | .broadcast payload => .ok payload
  | .join _ => .error (.protocol "Expected a payload frame, got Join")
  | .barrierEnter => .error (.protocol "Expected a payload frame, got BarrierEnter")
  | .barrierRelease => .error (.protocol "Expected a payload frame, got BarrierRelease")

def awaitPayload (peer : Rank) (wanted : Wanted) (lost : GroupError) :
    Conduct (Except GroupError (List UInt8)) := do
  return (← await peer wanted lost) >>= payloadOf

def spokeBarrier : Conduct (Except GroupError Unit) := do
  match ← deliver .coordinator .barrierEnter .coordinatorLost with
  | .error error => return .error error
  | .ok () => return (← await .coordinator .barrierRelease .coordinatorLost).map fun _ => ()

def barrier (c : Communicator) : Conduct (Except GroupError Unit) :=
  match c.topology with
  | .alone => return .ok ()
  | .hub _ => hubBarrier c.rank c.topology.livePeers
  | .spoke _ => spokeBarrier

/-- Only the coordinator can be the root, and it has to supply the payload. -/
def broadcast (c : Communicator) (root : Rank) (payload : Option (List UInt8)) :
    Conduct (Except GroupError (List UInt8)) :=
  if !root.isCoordinator then
    return .error (.protocol s!"Broadcast root must be the coordinator, got rank {root}")
  else
    match c.topology with
    | .spoke _ => awaitPayload .coordinator .broadcast .coordinatorLost
    | _ =>
      match payload with
      | none => return .error (.protocol "Broadcast root must supply a payload")
      | some bytes => hubBroadcast c.rank bytes c.topology.livePeers

/-- Where a message to or from a participant travels: on the link with it, if there is one. The
failure is that of finding it gone. -/
def route (c : Communicator) (other : Rank) : Except GroupError GroupError :=
  match c.topology with
  | .spoke _ =>
    if other.isCoordinator then .ok .coordinatorLost else .error (.unroutable c.rank other)
  | topology =>
    if (topology.link? other).isSome then .ok (.peerDeparted other)
    else .error (.unroutable c.rank other)

def send (c : Communicator) (target : Rank) (tag : UInt32) (payload : List UInt8) :
    Conduct (Except GroupError Unit) :=
  match c.route target with
  | .error error => return .error error
  | .ok lost => deliver target (.data tag payload) lost

def recv (c : Communicator) (source : Rank) (tag : UInt32) :
    Conduct (Except GroupError (List UInt8)) :=
  match c.route source with
  | .error error => return .error error
  | .ok lost => awaitPayload source (.data tag) lost

def finalize (c : Communicator) : Conduct (Except GroupError Unit) := do
  let _ ← .perform (I := Exchange.interface) .hangUp
  note .debug c.rank "Group connections closed"
  return .ok ()

def conduct (c : Communicator) : (call : Call) → Conduct call.Answer
  | .barrier => c.barrier
  | .broadcast root payload => c.broadcast root payload
  | .send target tag payload => c.send target tag payload
  | .recv source tag => c.recv source tag
  | .departed => return c.topology.departedPeers
  | .finalize => c.finalize

/-- What a participant meets on its links at a moment: whether the other side of one has ended
it, what becomes of bytes that are written to one, and how reading from one fails if it does. -/
structure Conditions where
  ended : Rank → Bool
  reception : Rank → Reception
  breakdown : Option FaultKind

def setLink (c : Communicator) (link : Link) : Communicator :=
  { c with topology := c.topology.setLink link }

def hangUp (c : Communicator) : Communicator :=
  { c with topology := c.topology.mapLinks Link.close }

/-- What an exchange comes to: its answer unless it still waits, the communicator after it, and
the bytes that go to a peer. -/
structure Effect (α : Type) where
  answer : Option α
  communicator : Communicator
  bytes : Option (Rank × List UInt8)

/-- One exchange over the links. It is impossible as long as it has to wait and there is nothing
to read; without an answer it has read what there was and waits on. Only the link that it names
changes. -/
def exchange? (c : Communicator) (conditions : Conditions) :
    (exchange : Exchange) → Option (Effect exchange.Answer)
  | .send peer frame =>
    match c.topology.link? peer with
    | none => some ⟨some .gone, c, none⟩
    | some link =>
      match link.send frame (conditions.reception peer) with
      | (.delivered, link, bytes) => some ⟨some .delivered, c.setLink link, some (peer, bytes)⟩
      | (sent, link, _) => some ⟨some sent, c.setLink link, none⟩
  | .take peer wanted =>
    match c.topology.link? peer with
    | none => some ⟨some .gone, c, none⟩
    | some link =>
      let (taken, after) :=
        link.take wanted.accepts (conditions.ended peer) conditions.breakdown
      if taken.isNone && link.inbox.arrivals.isEmpty then none
      else some ⟨taken, c.setLink after, none⟩
  | .hangUp => some ⟨some (), c.hangUp, none⟩
  | .note _ => some ⟨some (), c, none⟩

end Communicator
end FaultDrill
