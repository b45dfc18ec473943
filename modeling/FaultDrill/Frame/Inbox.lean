import FaultDrill.Frame
set_option autoImplicit false

namespace FaultDrill
open Wire

inductive Arrival where
  | frame (frame : Frame)
  | fault (error : ComponentError)
  deriving DecidableEq

def Arrival.ofBody (body : List UInt8) : Arrival :=
  match Frame.ofBody body with
  | .ok whole => .frame whole
  | .error error => .fault error

/-- The first arrival in the bytes, if they hold a whole one, and the bytes after it. -/
def Arrival.next? (bytes : List UInt8) :
    Option (Arrival × { rest : List UInt8 // rest.length < bytes.length }) :=
  if short : bytes.length < 4 then none
  else
    let length := ofLittleEndian (bytes.take 4)
    if length > Frame.maxLength then
      some (.fault (Frame.tooLarge length), ⟨bytes.drop 4, by rw [List.length_drop]; omega⟩)
    else if bytes.length < 4 + length then none
    else
      some (ofBody ((bytes.drop 4).take length),
        ⟨bytes.drop (4 + length), by rw [List.length_drop]; omega⟩)

/-- Cuts bytes into arrivals and the tail that does not make one yet. -/
def Arrival.cut (bytes : List UInt8) : List Arrival × List UInt8 :=
  match next? bytes with
  | none => ([], bytes)
  | some (arrival, ⟨rest, _⟩) =>
    let (arrivals, tail) := cut rest
    (arrival :: arrivals, tail)
termination_by bytes.length

structure Inbox where
  arrivals : List Arrival
  tail : List UInt8
  deriving DecidableEq

namespace Inbox

def empty : Inbox := ⟨[], []⟩

def push (inbox : Inbox) (bytes : List UInt8) : Inbox :=
  let (arrivals, tail) := Arrival.cut (inbox.tail ++ bytes)
  ⟨inbox.arrivals ++ arrivals, tail⟩

end Inbox
end FaultDrill
