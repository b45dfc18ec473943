import FaultDrill.Failure
import FaultDrill.Random.Draws
set_option autoImplicit false

namespace FaultDrill
open Text

structure RunParameters where
  sleepSeconds : UInt64
  fault : FaultCode
  failing : Rank
  deriving DecidableEq, Inhabited

namespace RunParameters

def make (sleepSeconds : UInt64) (fault : FaultCode) (failing : Rank) (size : UInt32) :
    Except ComponentError RunParameters :=
  if failing.index ≥ size then
    .error (.invalidSetting "failing_participant" s!"{failing} (group size {size})")
  else .ok ⟨sleepSeconds, fault, failing⟩

/-- The coordinator's choice: a missing sleep is zero, a missing fault is the fallback, and the
failing participant is drawn from the group. An empty group is refused before any draw. There is
no answer when none of the first `attempts` words is acceptable. -/
def resolve? (sleep : Option UInt64) (fault : Option FaultCode) (size : UInt32)
    (attempts : Nat) (draws : Draws) : Option (Except ComponentError RunParameters × Draws) :=
  if size = 0 then some (.error (.invalidSetting "group_size" "0"), draws)
  else (draws.below? size attempts).map fun (chosen, rest) =>
    (make (sleep.getD 0) (fault.getD .fallback) ⟨chosen⟩ size, rest)

def resolveAll? (sleep : Option UInt64) (fault : Option FaultCode) (attempts : Nat) :
    Draws → List UInt32 → Option (List (Except ComponentError RunParameters))
  | _, [] => some []
  | draws, size :: sizes => do
    let (choice, draws) ← resolve? sleep fault size attempts draws
    return choice :: (← resolveAll? sleep fault attempts draws sizes)

def mustFail (parameters : RunParameters) (rank : Rank) : Bool := parameters.failing == rank

instance : ToString RunParameters :=
  ⟨fun p => s!"bcast {p.sleepSeconds} {p.fault} {p.failing}"⟩

def inspect (p : RunParameters) : String :=
  inspectRecord "RunParameters" [("sleep_seconds", toString p.sleepSeconds),
    ("fault_code", p.fault.inspect), ("failing_participant", p.failing.inspect)]

end RunParameters
end FaultDrill
