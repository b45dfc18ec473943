set_option autoImplicit false

namespace FaultDrill

inductive FaultCode where
  | nullDereference
  | divideByZero
  | floatingPoint
  | illegalInstruction
  | segmentation
  | bus
  | abort
  | hangup
  | interrupt
  | quit
  | terminate
  | kill
  | unrecognized (raw : Int32)
  deriving DecidableEq, Inhabited

namespace FaultCode

/-- What a group run uses when no code is requested. -/
def fallback : FaultCode := divideByZero

def recognized : List FaultCode :=
  [nullDereference, divideByZero, floatingPoint, illegalInstruction, segmentation, bus, abort,
   hangup, interrupt, quit, terminate, kill]

def isRecognized : FaultCode → Bool
  | unrecognized _ => false
  | _ => true

def toInt32 : FaultCode → Int32
  | nullDereference => 0
  | divideByZero => 1
  | floatingPoint => 2
  | illegalInstruction => 3
  | segmentation => 4
  | bus => 5
  | abort => 6
  | hangup => 7
  | interrupt => 8
  | quit => 9
  | terminate => 10
  | kill => 11
  | unrecognized raw => raw

def ofInt32 (raw : Int32) : FaultCode :=
  match raw.toInt with
  | 0 => nullDereference
  | 1 => divideByZero
  | 2 => floatingPoint
  | 3 => illegalInstruction
  | 4 => segmentation
  | 5 => bus
  | 6 => abort
  | 7 => hangup
  | 8 => interrupt
  | 9 => quit
  | 10 => terminate
  | 11 => kill
  | _ => unrecognized raw

/-- The representative that shares the number: an `unrecognized` 0 to 11 becomes the named code. -/
def canonical (code : FaultCode) : FaultCode := ofInt32 code.toInt32

instance : ToString FaultCode := ⟨fun code => toString code.toInt32⟩

def inspect : FaultCode → String
  | nullDereference => "NullDereference"
  | divideByZero => "DivideByZero"
  | floatingPoint => "FloatingPointException"
  | illegalInstruction => "IllegalInstruction"
  | segmentation => "SegmentationViolation"
  | bus => "BusError"
  | abort => "Abort"
  | hangup => "Hangup"
  | interrupt => "Interrupt"
  | quit => "Quit"
  | terminate => "Terminate"
  | kill => "Kill"
  | unrecognized raw => s!"Unrecognized({raw})"

def label : FaultCode → String
  | nullDereference => "seg fault"
  | divideByZero => "divide by zero"
  | floatingPoint => "SIGFPE"
  | illegalInstruction => "SIGILL"
  | segmentation => "SIGSEGV"
  | bus => "SIGBUS"
  | abort => "SIGABRT"
  | hangup => "SIGHUP"
  | interrupt => "SIGINT"
  | quit => "SIGQUIT"
  | terminate => "SIGTERM"
  | kill => "SIGKILL"
  | unrecognized _ => "do nothing"

def description (code : FaultCode) : String := "fail type is " ++ code.label

def table : String :=
  "\n".intercalate (recognized.map fun code => s!"  {code}: {code.label}")

end FaultCode
end FaultDrill
