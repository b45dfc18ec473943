import FaultDrill.Call
import FaultDrill.Text.Blank
import FaultDrill.Text.Numeral
set_option autoImplicit false

namespace FaultDrill.Serial
open Text

def clamp (value : Int) : Int := max Int32.minValue.toInt (min value Int32.maxValue.toInt)

/-- Takes one more digit; the value stops growing just past the largest number. -/
def accumulate (value : Int) (digit : Char) : Int :=
  min (value * 10 + (digit.toNat - '0'.toNat : Nat)) (Int32.maxValue.toInt + 1)

def magnitude (cs : List Char) : Int := (cs.takeWhile isDecimalDigit).foldl accumulate 0

/-- The number at the front of a text: white space, at most one sign, and as many digits as
there are, none of them meaning zero. Values out of range become the nearest number. -/
def leadingInteger (text : String) : Int32 :=
  Int32.ofInt <| clamp <| match trimStart text.toList with
    | '-' :: rest => -magnitude rest
    | '+' :: rest => magnitude rest
    | rest => magnitude rest

def sleepSeconds (text : String) : UInt64 := UInt64.ofNat (leadingInteger text).toInt.toNat

def noteSleep (message : String) : Program Action.interface Unit :=
  .perform (I := Action.interface) (.note ⟨.info, .serial, none, message⟩)

def sleep (seconds : UInt64) : Program Action.interface Unit := do
  noteSleep s!"😴 Sleeping {seconds}s"
  .perform (I := Action.interface) (.sleep (.ofSeconds seconds))

def faultySleep (seconds : UInt64) (code : FaultCode) : Program Action.interface FaultOutcome := do
  noteSleep s!"😴 Sleeping {seconds}s before fault {code}"
  let _ ← .perform (I := Action.interface) (.sleep (.ofSeconds seconds))
  .perform (I := Action.interface) (.inject code)

end FaultDrill.Serial
