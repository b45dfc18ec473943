set_option autoImplicit false

namespace FaultDrill

structure Rank where
  index : UInt32
  deriving DecidableEq, Ord, Inhabited

namespace Rank

def coordinator : Rank := ⟨0⟩

def isCoordinator (r : Rank) : Bool := r == coordinator

instance : ToString Rank := ⟨fun r => toString r.index⟩

def inspect (r : Rank) : String := s!"Rank({r})"

def interval (first : Nat) : Nat → List Rank
  | 0 => []
  | count + 1 => ⟨UInt32.ofNat first⟩ :: interval (first + 1) count

/-- Everybody but the coordinator, in rank order. -/
def members (size : UInt32) : List Rank := interval 1 (size.toNat - 1)

def group (size : UInt32) : List Rank := interval 0 size.toNat

end Rank
end FaultDrill
