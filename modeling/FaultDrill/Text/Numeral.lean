set_option autoImplicit false

namespace FaultDrill.Text

def digit? (radix : Nat) (c : Char) : Option Nat :=
  let value? :=
    if '0' ≤ c ∧ c ≤ '9' then some (c.toNat - '0'.toNat)
    else if 'a' ≤ c ∧ c ≤ 'f' then some (c.toNat - 'a'.toNat + 10)
    else if 'A' ≤ c ∧ c ≤ 'F' then some (c.toNat - 'A'.toNat + 10)
    else none
  value?.filter (· < radix)

def isDecimalDigit (c : Char) : Bool := '0' ≤ c && c ≤ '9'

def valueOf (radix : Nat) (digits : List Nat) : Nat :=
  digits.foldl (fun value digit => value * radix + digit) 0

def readDigits? (cs : List Char) : Option Nat :=
  if cs.isEmpty then none
  else (cs.mapM (digit? 10)).map (valueOf 10)

/-- An unsigned number below `bound`: one optional plus sign, then decimal digits. -/
def readUnsigned? (bound : Nat) (cs : List Char) : Option Nat :=
  let digits := match cs with
    | '+' :: rest => rest
    | _ => cs
  (readDigits? digits).filter (· < bound)

def readInteger? (low high : Int) (cs : List Char) : Option Int := do
  let value : Int ← match cs with
    | '-' :: rest => (readDigits? rest).map fun n => -(n : Int)
    | '+' :: rest => (readDigits? rest).map Int.ofNat
    | _ => (readDigits? cs).map Int.ofNat
  if low ≤ value ∧ value ≤ high then some value else none

def readInt32? (cs : List Char) : Option Int32 :=
  (readInteger? Int32.minValue.toInt Int32.maxValue.toInt cs).map Int32.ofInt

def hexadecimal (n : Nat) : String := String.ofList (Nat.toDigits 16 n)

end FaultDrill.Text
