import FaultDrill.Frame.Inbox
set_option autoImplicit false

/-!
# Links

One end of a connection between the coordinator and a member. Frames that arrive ahead of the
operation that waits for them are kept in order, so whoever waits for a frame takes the first
fitting one of the kept frames followed by those still to be read. A link whose other side has
gone stays as a record of that; what it has kept can still be taken.
-/
namespace FaultDrill

structure Link where
  peer : Rank
  /-- This end is open: the other side has not been seen to leave. -/
  live : Bool
  /-- Frames that were read but that nobody has waited for yet. -/
  pending : List Frame
  inbox : Inbox
  deriving DecidableEq

inductive Wanted where
  | barrierEnter
  | barrierRelease
  | broadcast
  | data (tag : UInt32)
  deriving DecidableEq

def Wanted.accepts : Wanted → Frame → Bool
  | barrierEnter, .barrierEnter => true
  | barrierRelease, .barrierRelease => true
  | broadcast, .broadcast _ => true
  | data tag, .data found _ => found == tag
  | _, _ => false

inductive Taken where
  | frame (frame : Frame)
  | gone
  | failed (error : ComponentError)
  deriving DecidableEq

inductive Sent where
  | delivered
  | gone
  | failed (error : ComponentError)
  deriving DecidableEq

/-- What becomes of bytes that are written to a connection. -/
inductive Reception where
  | accepted
  | refused (kind : FaultKind)
  deriving DecidableEq

namespace Link

def opened (peer : Rank) : Link := ⟨peer, true, [], .empty⟩

def close (link : Link) : Link := { link with live := false, inbox := .empty }

def removeFirst? (accept : Frame → Bool) : List Frame → Option (Frame × List Frame)
  | [] => none
  | frame :: rest =>
    if accept frame then some (frame, rest)
    else (removeFirst? accept rest).map fun (found, others) => (found, frame :: others)

/-- Reads arrivals until one is accepted or is no frame, keeping the frames before it. There is
no answer when the arrivals run out and the other side, which has not `ended`, may send more. -/
def readOn (accept : Frame → Bool) (ended : Bool) (link : Link) :
    List Arrival → Option Taken × Link
  | [] =>
    if ended then (some .gone, link.close)
    else (none, { link with inbox := ⟨[], link.inbox.tail⟩ })
  | .fault error :: rest =>
    (some (.failed error), { link with inbox := ⟨rest, link.inbox.tail⟩ })
  | .frame frame :: rest =>
    if accept frame then (some (.frame frame), { link with inbox := ⟨rest, link.inbox.tail⟩ })
    else readOn accept ended { link with pending := link.pending ++ [frame] } rest

/-- Reading from the connection fails. A failure that means the other side is gone closes this
end. -/
def failReading (kind : FaultKind) (link : Link) : Taken × Link :=
  if kind.isDisconnect then (.gone, link.close) else (.failed (.transfer (.ofKind kind)), link)

/-- Waits for an accepted frame: the kept ones first, then what arrives, unless the connection
breaks down. -/
def take (accept : Frame → Bool) (ended : Bool) (breakdown : Option FaultKind) (link : Link) :
    Option Taken × Link :=
  match removeFirst? accept link.pending with
  | some (frame, rest) => (some (.frame frame), { link with pending := rest })
  | none =>
    if !link.live then (some .gone, link)
    else
      match breakdown with
      | none => readOn accept ended link link.inbox.arrivals
      | some kind =>
        let (taken, link) := link.failReading kind
        (some taken, link)

/-- Sends a frame, given what becomes of its bytes; also returns the bytes that were accepted. A
frame above the limit is refused before any byte. A failure that means the other side is gone
closes this end. -/
def send (frame : Frame) (reception : Reception) (link : Link) : Sent × Link × List UInt8 :=
  if !link.live then (.gone, link, [])
  else
    match frame.packet with
    | .error error => (.failed error, link, [])
    | .ok bytes =>
      match reception with
      | .accepted => (.delivered, link, bytes)
      | .refused kind =>
        if kind.isDisconnect then (.gone, link.close, [])
        else (.failed (.transfer (.ofKind kind)), link, [])

def receive (bytes : List UInt8) (link : Link) : Link :=
  if link.live then { link with inbox := link.inbox.push bytes } else link

def readNext (ended : Bool) (link : Link) :
    Option (Except ComponentError (Option Frame)) × Link :=
  match link.inbox.arrivals with
  | .frame frame :: rest =>
    (some (.ok (some frame)), { link with inbox := ⟨rest, link.inbox.tail⟩ })
  | .fault error :: rest =>
    (some (.error error), { link with inbox := ⟨rest, link.inbox.tail⟩ })
  | [] => if ended then (some (.ok none), link) else (none, link)

end Link
end FaultDrill
