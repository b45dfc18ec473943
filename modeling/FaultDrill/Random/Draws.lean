set_option autoImplicit false

/-!
# Uniform draws

A stream of 32-bit words without end, and the draw of a number below `n` from it. A word `v`
maps to the high half of the 64-bit product `v * n`. Words whose low half lies past the zone are
rejected and the next word is tried, so that every number below `n` has equally many words.
-/
namespace FaultDrill

abbrev Draws := Nat → UInt32

namespace Draws

def ofList (words : List UInt32) : Draws := fun i => words.getD i 0

def drop (draws : Draws) (count : Nat) : Draws := fun i => draws (count + i)

def leadingZeros (n : UInt32) : Nat := if n = 0 then 32 else 31 - n.toNat.log2

/-- The largest low half that is accepted: `n` shifted to the top of the word, less one. -/
def zone (n : UInt32) : Nat := (n.toNat <<< leadingZeros n) - 1

def isAccepted (n word : UInt32) : Bool := word.toNat * n.toNat % UInt32.size ≤ zone n

/-- The number below `n` that a word maps to. -/
def scale (n word : UInt32) : UInt32 := UInt32.ofNat (word.toNat * n.toNat / UInt32.size)

/-- Draws a number below `n` from the first accepted word and returns it with the rest of the
stream. At most `attempts` words are tried; without an accepted one among them there is no
answer. -/
def below? (n : UInt32) : (attempts : Nat) → Draws → Option (UInt32 × Draws)
  | 0, _ => none
  | attempts + 1, draws =>
    if isAccepted n (draws 0) then some (scale n (draws 0), draws.drop 1)
    else below? n attempts (draws.drop 1)

end Draws
end FaultDrill
