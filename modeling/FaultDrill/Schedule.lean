import FaultDrill.Call
import FaultDrill.Frame
set_option autoImplicit false

/-!
# Schedules

What every participant of a group does, in order. Both schedules open alike: everybody meets,
the members greet the coordinator, everybody meets again, and the coordinator tells all of them
what it has decided. In the plain schedule everybody then sleeps. In the faulty one the chosen
participant is given its fault between two sleeps, and those who are left meet once more and say
goodbye.

A schedule ends at the first call that fails. Only the last meeting tolerates one failure: a
lost coordinator, when the coordinator was the one chosen to fail.
-/
namespace FaultDrill
open Text Wire

abbrev Schedule (α : Type) : Type := ExceptT GroupError (Program Action.interface) α

structure Seat where
  rank : Rank
  size : UInt32
  greeting : String
  deriving DecidableEq

inductive Outcome where
  | completed
  | terminated
  /-- The coordinator was chosen to fail and went away, so no goodbye was possible. -/
  | coordinatorLost
  deriving DecidableEq

def Outcome.name : Outcome → String
  | completed => "Completed"
  | terminated => "Terminated"
  | coordinatorLost => "CoordinatorLost"

/-- A faulty run as one participant saw it. The lines are those the coordinator printed, its own
first; the members have none. -/
structure RunReport where
  rank : Rank
  parameters : RunParameters
  greetings : List String
  farewells : List String
  outcome : Outcome
  deriving DecidableEq

structure SleepReport where
  rank : Rank
  sleepSeconds : UInt64
  greetings : List String
  deriving DecidableEq

namespace Schedule

def act (action : Action) : Schedule action.Answer :=
  ExceptT.lift (Program.perform (I := Action.interface) action)

def print (line : String) : Schedule Unit := act (.print (line ++ "\n"))

def note (severity : Severity) (rank : Rank) (message : String) : Schedule Unit :=
  act (.note ⟨severity, .schedule, some rank, message⟩)

def sleep (seconds : UInt64) : Schedule Unit := act (.sleep (.ofSeconds seconds))

def inject (code : FaultCode) : Schedule FaultOutcome := act (.inject code)

def demand {α : Type} (answer : Except GroupError α) : Schedule α := ExceptT.mk (pure answer)

def attempt {α : Type} (stretch : Schedule α) : Schedule (Except GroupError α) :=
  ExceptT.lift stretch.run

def barrier : Schedule Unit := do demand (← act (.call .barrier))

def broadcast (payload : Option (List UInt8)) : Schedule (List UInt8) := do
  demand (← act (.call (.broadcast .coordinator payload)))

def send (target : Rank) (line : String) : Schedule Unit := do
  demand (← act (.call (.send target Frame.textTag (Utf8.encode line))))

def recv (source : Rank) : Schedule (List UInt8) := do
  demand (← act (.call (.recv source Frame.textTag)))

def departed : Schedule (List Rank) := act (.call .departed)

def finalize : Schedule Unit := do demand (← act (.call .finalize))

def receiveText (source : Rank) : Schedule String := do
  match Utf8.decode (← recv source) with
  | .ok line => return line
  | .error fault =>
    throw (.protocol s!"Rank {source} sent a non UTF-8 line: {fault.message}")

/-- The coordinator's value, as it arrives at every participant. The coordinator passes it, the
others pass none. -/
def broadcastValue {α : Type} [Wire α] (value : Option α) : Schedule α := do
  match decode (← broadcast (value.map encode)) with
  | .ok received => return received
  | .error fault =>
    throw (.protocol s!"Failed to deserialize broadcast value: {fault.message}")

def hearFrom (first : Nat) : (count : Nat) → Schedule (List String)
  | 0 => return []
  | count + 1 => do
    let line ← receiveText ⟨UInt32.ofNat first⟩
    print line
    return line :: (← hearFrom (first + 1) count)

def exchangeGreetings (seat : Seat) : Schedule (List String) := do
  if seat.rank.isCoordinator then
    print seat.greeting
    return seat.greeting :: (← hearFrom 1 (seat.size.toNat - 1))
  else
    send .coordinator seat.greeting
    return []

def agreeOnSleep (seat : Seat) (requested : Option UInt64) : Schedule UInt64 := do
  if seat.rank.isCoordinator then
    print "get sleep_val"
    print "bcast"
    let shared ← broadcastValue (some (requested.getD 0))
    print s!"{seat.rank} is sleeping for {shared} seconds"
    return shared
  else broadcastValue none

def plain (seat : Seat) (requested : Option UInt64) : Schedule SleepReport := do
  barrier
  let greetings ← exchangeGreetings seat
  if seat.rank.isCoordinator then print "post-hello world barrier"
  barrier
  let seconds ← agreeOnSleep seat requested
  sleep seconds
  finalize
  return ⟨seat.rank, seconds, greetings⟩

def agreeOnRun (seat : Seat) (choice : Except ComponentError RunParameters) :
    Schedule RunParameters := do
  if seat.rank.isCoordinator then
    let parameters ← demand (choice.mapError .component)
    print (toString parameters)
    broadcastValue (some parameters)
  else broadcastValue none

def strike (rank : Rank) (parameters : RunParameters) : Schedule FaultOutcome := do
  if parameters.mustFail rank then
    note .warn rank s!"💉 Selected to fail with code {parameters.fault}"
    inject parameters.fault
  else return .survived

def notSurvived (observer : Rank) (rank : Rank) (fault : FaultCode) : Schedule Unit :=
  note .info observer s!"💀 Rank {rank} did not survive fault {fault}"

/-- The farewells of the next `count` participants. Those that are known to have left are passed
over; of the others only the chosen one may turn out to have left. -/
def farewellsFrom (observer : Rank) (parameters : RunParameters) (departed : List Rank)
    (first : Nat) : (count : Nat) → Schedule (List String)
  | 0 => return []
  | count + 1 => do
    let source : Rank := ⟨UInt32.ofNat first⟩
    let others := farewellsFrom observer parameters departed (first + 1) count
    if departed.contains source then
      notSurvived observer source parameters.fault
      others
    else
      match ← attempt (receiveText source) with
      | .ok line =>
        print line
        return line :: (← others)
      | .error (.peerDeparted rank) =>
        if rank = parameters.failing then
          notSurvived observer rank parameters.fault
          others
        else throw (.unexpectedDeparture rank)
      | .error error => throw error

/-- The coordinator's side of the farewells. Nobody but the chosen participant may be missing. -/
def collectFarewells (seat : Seat) (parameters : RunParameters) : Schedule (List String) := do
  let departed ← departed
  match departed.find? (· ≠ parameters.failing) with
  | some rank => throw (.unexpectedDeparture rank)
  | none =>
    print seat.rank.farewell
    let others ← farewellsFrom seat.rank parameters departed 1 (seat.size.toNat - 1)
    return seat.rank.farewell :: others

def exchangeFarewells (seat : Seat) (parameters : RunParameters) : Schedule (List String) := do
  if seat.rank.isCoordinator then collectFarewells seat parameters
  else
    send .coordinator seat.rank.farewell
    return []

def part (seat : Seat) (report : RunReport) : Schedule RunReport := do
  let farewells ← exchangeFarewells seat report.parameters
  finalize
  note .info seat.rank "✅ Run completed"
  return { report with farewells }

def close (seat : Seat) (report : RunReport) : Schedule RunReport := do
  match ← attempt barrier with
  | .ok () => part seat report
  | .error error =>
    if error = .coordinatorLost ∧ report.parameters.failing.isCoordinator then
      note .warn seat.rank "⚠️ Coordinator did not survive its fault, skipping farewell"
      return { report with outcome := .coordinatorLost }
    else throw error

def faulty (seat : Seat) (choice : Except ComponentError RunParameters) :
    Schedule RunReport := do
  barrier
  let greetings ← exchangeGreetings seat
  barrier
  let parameters ← agreeOnRun seat choice
  note .debug seat.rank s!"Received run parameters: {parameters.inspect}"
  let report : RunReport := ⟨seat.rank, parameters, greetings, [], .completed⟩
  sleep parameters.sleepSeconds
  let outcome ← strike seat.rank parameters
  if outcome = .terminated then return { report with outcome := .terminated }
  else
    sleep parameters.sleepSeconds
    close seat report

end Schedule
end FaultDrill
