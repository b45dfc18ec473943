import FaultDrill.Wire.Values
set_option autoImplicit false

/-!
# Frames

The messages on the connections of a group. On the wire a frame is its kind, numbered in the
order below, followed by its fields.
-/
namespace FaultDrill
open Text Wire

inductive Frame where
  | join (rank : Rank)
  | data (tag : UInt32) (payload : List UInt8)
  | barrierEnter
  | barrierRelease
  | broadcast (payload : List UInt8)
  deriving DecidableEq, Inhabited

namespace Frame

def textTag : UInt32 := 0

/-- The largest encoding of a frame that is written or accepted, in bytes. -/
def maxLength : Nat := 1024 * 1024

instance : Wire Frame where
  encode
    | join rank => encode (0 : UInt32) ++ encode rank
    | data tag payload => encode (1 : UInt32) ++ encode tag ++ encode payload
    | barrierEnter => encode (2 : UInt32)
    | barrierRelease => encode (3 : UInt32)
    | broadcast payload => encode (4 : UInt32) ++ encode payload
  reader := do
    let kind : UInt32 ← reader
    if kind = 0 then return join (← reader)
    else if kind = 1 then return data (← reader) (← reader)
    else if kind = 2 then return barrierEnter
    else if kind = 3 then return barrierRelease
    else if kind = 4 then return broadcast (← reader)
    else throw (.unknownVariant kind 5)

def inspectBytes (bytes : List UInt8) : String := inspectList (bytes.map toString)

def inspect : Frame → String
  | join rank => inspectRecord "Join" [("rank", rank.inspect)]
  | data tag payload =>
    inspectRecord "Data" [("tag", toString tag), ("payload", inspectBytes payload)]
  | barrierEnter => "BarrierEnter"
  | barrierRelease => "BarrierRelease"
  | broadcast payload => inspectRecord "Broadcast" [("payload", inspectBytes payload)]

def tooLarge (length : Nat) : ComponentError := .protocol s!"Frame too large: {length} bytes"

def undecodable (fault : DecodeFault) : ComponentError :=
  .deserialization s!"Failed to deserialize frame: {fault.message}"

def ofBody (body : List UInt8) : Except ComponentError Frame :=
  (decode body).mapError undecodable

/-- A frame as it travels: the length of its encoding in four bytes, then the encoding. -/
def packet (frame : Frame) : Except ComponentError (List UInt8) :=
  let body := encode frame
  if body.length > maxLength then .error (tooLarge body.length)
  else .ok (littleEndian 4 body.length ++ body)

end Frame
end FaultDrill
