import FaultDrill.Duration
import FaultDrill.Failure
import FaultDrill.Log
import FaultDrill.Program
set_option autoImplicit false

namespace FaultDrill

inductive Call where
  | barrier
  | broadcast (root : Rank) (payload : Option (List UInt8))
  | send (target : Rank) (tag : UInt32) (payload : List UInt8)
  | recv (source : Rank) (tag : UInt32)
  | departed
  | finalize
  deriving DecidableEq

abbrev Call.Answer : Call → Type
  | barrier | send .. | finalize => Except GroupError Unit
  | broadcast .. | recv .. => Except GroupError (List UInt8)
  | departed => List Rank

inductive FaultOutcome where
  | survived
  | terminated
  deriving DecidableEq, Inhabited

def FaultOutcome.name : FaultOutcome → String
  | survived => "Survived"
  | terminated => "Terminated"

inductive Action where
  | call (call : Call)
  | sleep (time : Duration)
  | inject (code : FaultCode)
  | print (text : String)
  | note (entry : LogEntry)

abbrev Action.Answer : Action → Type
  | .call request => request.Answer
  | inject _ => FaultOutcome
  | sleep _ | print _ | note _ => Unit

def Action.interface : Interface := ⟨Action, Action.Answer⟩

end FaultDrill
