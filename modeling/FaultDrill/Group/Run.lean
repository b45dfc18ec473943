import FaultDrill.Injector
import FaultDrill.Network
import FaultDrill.Schedule.Rehearsal
set_option autoImplicit false

namespace FaultDrill

inductive Departure (α : Type) where
  | returned (result : α)
  | died (signal : Signal)

/-- Something that is seen of a participant at a moment of the common clock, in nanoseconds. -/
structure Sighting (β : Type) where
  who : Rank
  clock : Nat
  what : β

structure GroupRun (α : Type) where
  network : Network α
  clock : Nat
  wakes : List (Rank × Nat)
  departures : List (Sighting (Departure α))
  events : List (Sighting Event)

namespace GroupRun

variable {α : Type}

def start (network : Network α) : GroupRun α := ⟨network, 0, [], [], []⟩

def ranks (run : GroupRun α) : List Rank := run.network.sites.map Site.rank

def awakeFrom (run : GroupRun α) (who : Rank) : Nat :=
  ((run.wakes.find? fun wake => wake.1 == who).map Prod.snd).getD 0

/-- What happens without a choice of ours: departures are noticed as soon as something is
written to them. -/
def choice (outcome : FaultOutcome) : Choice := ⟨true, outcome, none⟩

def observe (run : GroupRun α) (who : Rank) (events : List Event) : GroupRun α :=
  let wakes := events.filterMap fun
    | .slept time => some (who, run.clock + Rehearsal.clip time)
    | _ => none
  { run with
    wakes := wakes ++ run.wakes
    events := run.events ++ events.map fun event => ⟨who, run.clock, event⟩ }

def depart (run : GroupRun α) (who : Rank) (departure : Departure α) : GroupRun α :=
  { run with departures := run.departures ++ [⟨who, run.clock, departure⟩] }

def injecting? (site : Site α) : Option FaultCode :=
  match site.activity with
  | .running (.ask (.inject code) _) => some code
  | _ => none

def strike (run : GroupRun α) (who : Rank) (code : FaultCode) (injector : Injector) :
    Option (GroupRun α) :=
  let injection := injector code
  let shown := run.observe who
    (injection.printed.map Event.printed ++ injection.notes.map Event.noted)
  match injection.fate with
  | .answers outcome =>
    (run.network.proceed? who (choice outcome)).map fun (network, events) =>
      { shown.observe who events with network }
  | .dies signal =>
    let shown := shown.observe who [.injected code .terminated]
    some ({ shown with network := run.network.crash who 0 }.depart who (.died signal))

def advance? (run : GroupRun α) (injector : Injector) (who : Rank) : Option (GroupRun α) := do
  let site ← run.network.site? who
  if run.awakeFrom who > run.clock then none
  else
    match injecting? site, site.activity with
    | some code, _ => run.strike who code injector
    | none, .running (.done result) =>
      let network ← run.network.leave? who
      some ({ run with network }.depart who (.returned result))
    | none, _ =>
      let (network, events) ← run.network.proceed? who (choice .survived)
      some { run.observe who events with network }

def advanceFirst? (run : GroupRun α) (injector : Injector) : List Rank → Option (GroupRun α)
  | [] => none
  | who :: rest =>
    match run.advance? injector who with
    | some run => some run
    | none => advanceFirst? run injector rest

def hasLeft (run : GroupRun α) (who : Rank) : Bool :=
  run.departures.any fun departure => departure.who == who

def nextWake? (run : GroupRun α) : Option Nat :=
  ((run.ranks.filter fun who => !run.hasLeft who).map run.awakeFrom
    |>.filter (· > run.clock)).min?

/-- Somebody goes on, or the clock does. -/
def step? (run : GroupRun α) (injector : Injector) : Option (GroupRun α) :=
  match run.advanceFirst? injector run.ranks with
  | some run => some run
  | none => run.nextWake?.map fun clock => { run with clock }

def finish (injector : Injector) : (steps : Nat) → GroupRun α → GroupRun α
  | 0, run => run
  | steps + 1, run =>
    match run.step? injector with
    | none => run
    | some run => finish injector steps run

def patience (size : UInt32) : Nat := 256 * (size.toNat + 1)

def complete (size : UInt32) (program : Rank → Program Action.interface α)
    (injector : Injector) : GroupRun α :=
  finish injector (patience size) (start (Network.formed size program))

def departure? (run : GroupRun α) (who : Rank) : Option (Sighting (Departure α)) :=
  run.departures.find? fun departure => departure.who == who

def printed (run : GroupRun α) : List (Sighting String) :=
  run.events.filterMap fun seen =>
    match seen.what with
    | .printed text => some ⟨seen.who, seen.clock, text⟩
    | _ => none

def notes (run : GroupRun α) : List (Sighting LogEntry) :=
  run.events.filterMap fun seen =>
    match seen.what with
    | .noted entry => some ⟨seen.who, seen.clock, entry⟩
    | _ => none

def injectedBy (run : GroupRun α) (who : Rank) : List FaultCode :=
  run.events.filterMap fun seen =>
    match seen.what with
    | .injected code _ => if seen.who = who then some code else none
    | _ => none

end GroupRun

namespace Schedule

/-- A schedule whose participant closes its connections where it would say goodbye. -/
def vanishing {α : Type} : Program Action.interface α → Program Action.interface α
  | .done result => .done result
  | .ask (.call (.send target tag payload)) next =>
    if Text.Utf8.encode "goodbye" |>.isPrefixOf payload then
      .ask (.call .finalize) fun answer => vanishing (next answer)
    else .ask (.call (.send target tag payload)) fun answer => vanishing (next answer)
  | .ask action next => .ask action fun answer => vanishing (next answer)

end Schedule

namespace GroupRun

structure Cast where
  size : UInt32
  greeting : Rank → String
  requestedSleep : Rank → Option UInt64
  /-- Those who close their connections where they would say goodbye. -/
  vanishing : List Rank

namespace Cast

def seat (cast : Cast) (rank : Rank) : Seat := ⟨rank, cast.size, cast.greeting rank⟩

def play {α : Type} (cast : Cast) (injector : Injector)
    (program : Rank → Program Action.interface α) : GroupRun α :=
  complete cast.size
    (fun rank =>
      if cast.vanishing.contains rank then Schedule.vanishing (program rank) else program rank)
    injector

def plain (cast : Cast) : GroupRun (Except GroupError SleepReport) :=
  cast.play (.recording .survived) fun rank =>
    (Schedule.plain (cast.seat rank) (cast.requestedSleep rank)).run

def faulty (cast : Cast) (choice : Rank → Except ComponentError RunParameters)
    (outcome : FaultOutcome) : GroupRun (Except GroupError RunReport) :=
  cast.play (.recording outcome) fun rank =>
    (Schedule.faulty (cast.seat rank) (choice rank)).run

end Cast
end GroupRun
end FaultDrill
