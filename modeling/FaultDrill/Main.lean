import FaultDrill.Command.Launch
set_option autoImplicit false

namespace FaultDrill.Command

def knownVariables : List String :=
  [Placement.rankVariable, Placement.sizeVariable, Placement.addressVariable,
   Placement.timeoutVariable, seedVariable]

/-- What has to be written, with the moment at which it is due and whether it is a diagnostic. -/
def schedule (course : Course) : List (Nat × Bool × String) :=
  let texts := course.printed.map fun (clock, text) => (clock, false, text)
  let notes := course.notes.map fun (clock, entry) => (clock, true, entry.render ++ "\n")
  (notes ++ texts).mergeSort fun a b => a.1 ≤ b.1

def waitFrom (clock due : Nat) : IO Unit :=
  if due > clock then IO.sleep (UInt32.ofNat ((due - clock) / 1_000_000)) else return

def replay (clock : Nat) : List (Nat × Bool × String) → IO Nat
  | [] => return clock
  | (due, diagnostic, text) :: rest => do
    waitFrom clock due
    if diagnostic then IO.eprint text else IO.print text
    replay (max clock due) rest

end FaultDrill.Command

open FaultDrill FaultDrill.Command in
def main (arguments : List String) : IO UInt32 := do
  let environment ← knownVariables.filterMapM fun name => do
    return (← IO.getEnv name).map fun value => (name, value)
  let moment ← IO.monoMsNow
  let greeting (rank : Rank) := (Participant.mk rank "localhost" 1).greeting
  let machine := Machine.ofHost .connected greeting (some "") (UInt64.ofNat moment)
  match arguments with
  | [] => do
    IO.eprintln "Expecting a command."
    return 2
  | name :: rest =>
    match run? machine name { arguments := rest, environment } with
    | none => do
      IO.eprintln s!"No command {name}."
      return 2
    | some course => do
      let clock ← replay 0 (schedule course)
      waitFrom clock course.ended
      if let some report := course.report? then IO.eprintln s!"Error: {report}"
      let status := course.ending.status
      return UInt32.ofNat (status.exitCode?.getD (128 + status.signalNumber?.getD 0))
