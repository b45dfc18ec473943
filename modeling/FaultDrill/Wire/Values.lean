import FaultDrill.Participant
import FaultDrill.RunParameters
import FaultDrill.Wire.Field
set_option autoImplicit false

namespace FaultDrill
open Wire

instance : Wire Rank where
  encode rank := encode rank.index
  reader := do return ⟨← reader⟩

instance : Wire FaultCode where
  encode code := encode code.toInt32
  reader := do return FaultCode.ofInt32 (← reader)

instance : Wire RunParameters where
  encode p := encode p.sleepSeconds ++ encode p.fault ++ encode p.failing
  reader := do return ⟨← reader, ← reader, ← reader⟩

instance : Wire Participant where
  encode p := encode p.rank ++ encode p.host ++ encode p.pid
  reader := do return ⟨← reader, ← reader, ← reader⟩

end FaultDrill
