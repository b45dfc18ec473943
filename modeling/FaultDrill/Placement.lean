import FaultDrill.Duration
import FaultDrill.Failure
import FaultDrill.Net.Address
import FaultDrill.Text.Blank
set_option autoImplicit false

namespace FaultDrill
open Text Net

structure Placement where
  rank : Rank
  size : UInt32
  address : SocketAddress
  connectTimeout : Duration
  deriving DecidableEq

namespace Placement

def rankVariable : String := "FIXTURE_GROUP_RANK"
def sizeVariable : String := "FIXTURE_GROUP_SIZE"
def addressVariable : String := "FIXTURE_GROUP_ADDR"
def timeoutVariable : String := "FIXTURE_CONNECT_TIMEOUT_MS"

def defaultTimeout : Duration := Duration.ofSeconds 10

def solo : Placement := ⟨.coordinator, 1, .v4 .loopback 0, defaultTimeout⟩

/-- A place in a group that is not empty and that the rank belongs to. -/
def make (rank : Rank) (size : UInt32) (address : SocketAddress) : Except GroupError Placement :=
  if size = 0 then .error (.configuration sizeVariable "0")
  else if rank.index ≥ size then .error (.invalidRank rank size)
  else .ok ⟨rank, size, address, defaultTimeout⟩

def readVariable {α : Type} (read : List Char → Option α) (name value : String) :
    Except GroupError α :=
  match read (trim value.toList) with
  | some result => .ok result
  | none => .error (.configuration name value)

def readWord32? (text : List Char) : Option UInt32 :=
  (readUnsigned? UInt32.size text).map UInt32.ofNat

def readWord64? (text : List Char) : Option UInt64 :=
  (readUnsigned? UInt64.size text).map UInt64.ofNat

/-- The placement that variables describe. Rank, size and address come together or not at all;
they are read in this order, then checked, and the timeout is read last. -/
def ofLookup (lookup : String → Option String) : Except GroupError Placement := do
  let placement ←
    match lookup rankVariable, lookup sizeVariable, lookup addressVariable with
    | none, none, none => pure solo
    | some rank, some size, some address => do
      let rank ← readVariable readWord32? rankVariable rank
      let size ← readVariable readWord32? sizeVariable size
      let address ← readVariable SocketAddress.parse? addressVariable address
      make ⟨rank⟩ size address
    | _, _, _ =>
      throw (.configuration s!"{rankVariable}/{sizeVariable}/{addressVariable}"
        "must be set together")
  match lookup timeoutVariable with
  | none => return placement
  | some text =>
    let millis ← readVariable readWord64? timeoutVariable text
    return { placement with connectTimeout := .ofMillis millis }

/-- The variables that describe a placement; of the timeout they keep whole milliseconds. -/
def environment (placement : Placement) : List (String × String) :=
  [(rankVariable, toString placement.rank),
   (sizeVariable, toString placement.size),
   (addressVariable, placement.address.render),
   (timeoutVariable, toString placement.connectTimeout.wholeMillis)]

end Placement

/-- Looks a variable up in a list of them; the first of a name counts. -/
def lookupVariable (environment : List (String × String)) (name : String) : Option String :=
  (environment.find? fun entry => entry.1 == name).map Prod.snd

end FaultDrill
