import FaultDrill.Rank
set_option autoImplicit false

namespace FaultDrill

structure Participant where
  rank : Rank
  host : String
  pid : UInt32
  deriving DecidableEq

namespace Participant

def greeting (p : Participant) : String := s!"host: {p.host} -- rank {p.rank} -- pid {p.pid}"

end Participant

def Rank.farewell (rank : Rank) : String := s!"goodbye from rank {rank}"

end FaultDrill
