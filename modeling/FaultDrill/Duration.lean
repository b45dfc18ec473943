set_option autoImplicit false

namespace FaultDrill

structure Duration where
  seconds : UInt64
  nanos : Nat
  nanos_lt : nanos < 1_000_000_000
  deriving DecidableEq

namespace Duration

def ofSeconds (seconds : UInt64) : Duration := ⟨seconds, 0, by decide⟩

def ofMillis (millis : UInt64) : Duration :=
  ⟨UInt64.ofNat (millis.toNat / 1000), millis.toNat % 1000 * 1_000_000, by omega⟩

def ofMicros (micros : UInt64) : Duration :=
  ⟨UInt64.ofNat (micros.toNat / 1_000_000), micros.toNat % 1_000_000 * 1000, by omega⟩

def ofNanos (nanos : Nat) : Duration :=
  ⟨UInt64.ofNat (nanos / 1_000_000_000), nanos % 1_000_000_000, by omega⟩

/-- Seconds and nanoseconds; nanoseconds past a second are carried, if the seconds allow. -/
def ofParts? (seconds : UInt64) (nanos : Nat) : Option Duration :=
  let whole := seconds.toNat + nanos / 1_000_000_000
  if whole < UInt64.size then some ⟨UInt64.ofNat whole, nanos % 1_000_000_000, by omega⟩
  else none

def totalNanos (d : Duration) : Nat := d.seconds.toNat * 1_000_000_000 + d.nanos

def wholeMillis (d : Duration) : Nat := d.seconds.toNat * 1000 + d.nanos / 1_000_000

def isZero (d : Duration) : Bool := d.seconds == 0 && d.nanos == 0

def decimalText (whole fraction places : Nat) : String :=
  let digits := (Nat.toDigits 10 fraction).leftpad places '0'
  match (digits.reverse.dropWhile (· == '0')).reverse with
  | [] => toString whole
  | kept => toString whole ++ "." ++ String.ofList kept

def inspect (d : Duration) : String :=
  if d.seconds > 0 then decimalText d.seconds.toNat d.nanos 9 ++ "s"
  else if d.nanos ≥ 1_000_000 then
    decimalText (d.nanos / 1_000_000) (d.nanos % 1_000_000) 6 ++ "ms"
  else if d.nanos ≥ 1000 then decimalText (d.nanos / 1000) (d.nanos % 1000) 3 ++ "µs"
  else s!"{d.nanos}ns"

end Duration

/-- A moment of the monotonic clock: a signed count of seconds in 64 bits, and nanoseconds. -/
structure Moment where
  seconds : Int64
  nanos : Nat
  nanos_lt : nanos < 1_000_000_000
  deriving DecidableEq

namespace Moment

def ofSeconds (seconds : Int64) : Moment := ⟨seconds, 0, by decide⟩

/-- The moment a duration later, if the clock can show it. -/
def add? (m : Moment) (d : Duration) : Option Moment :=
  let nanos := m.nanos + d.nanos
  let seconds := m.seconds.toInt + d.seconds.toNat + nanos / 1_000_000_000
  if seconds ≤ Int64.maxValue.toInt then
    some ⟨Int64.ofInt seconds, nanos % 1_000_000_000, by omega⟩
  else none

end Moment
end FaultDrill
