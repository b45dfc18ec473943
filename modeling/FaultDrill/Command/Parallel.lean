import FaultDrill.Command.Serial
import FaultDrill.Group.Bootstrap
import FaultDrill.Random.KeyStream
set_option autoImplicit false

namespace FaultDrill.Command
open Text

structure Surroundings where
  greeting : Rank → String
  host : Net.Host
  clockSeed : UInt64
  /-- How many words of a key stream are tried for a draw. -/
  attempts : Nat

def readsWord64 (text : String) : Bool := (Placement.readWord64? text.toList).isSome

def readsInt32 (text : String) : Bool := (readInt32? text.toList).isSome

def secondsPlace : PlaceSpec := ⟨readsWord64, false⟩

def codePlace : PlaceSpec := ⟨readsInt32, true⟩

def parallelGrammar : Grammar := ⟨[logLevel], .fixed [secondsPlace]⟩

def faultyParallelGrammar : Grammar :=
  ⟨[⟨"seed", none, readsWord64⟩, logLevel], .fixed [secondsPlace, codePlace]⟩

/-- A participant from its placement to the end of its schedule, among the others of its group if
they have `joined`. `describe` says how a finished schedule is noted, `context` what failed when
it did not finish. -/
def participate {α : Type} (around : Surroundings) (joined : Bool) (start : Start)
    (name context : String) (schedule : Seat → Procedure (Except GroupError α))
    (describe : α → String) : Procedure JobEnd :=
  match Placement.ofLookup (lookupVariable start.environment) with
  | .error error => return .failed error.inspect
  | .ok placement => do
    Procedure.note (.startup placement.rank name)
    let entrance := Bootstrap.connect around.host placement joined
    entrance.notes.forM Procedure.note
    Procedure.sleep entrance.waited
    match entrance.result with
    | .error error => return .failed error.inspect
    | .ok communicator =>
      let rank := communicator.rank
      match ← schedule ⟨rank, communicator.size, around.greeting rank⟩ with
      | .ok report =>
        Procedure.note (.shutdown rank (describe report))
        return .exited 0
      | .error error =>
        Procedure.note (.failure rank context error.message)
        return .failed error.inspect

def parallelSleep (around : Surroundings) (joined : Bool) (start : Start) : Job :=
  match parallelGrammar.read start.arguments with
  | .help => Job.help
  | .fault => Job.refuse ["Bad arguments.  Expecting an optional integer sleep parameter."]
  | .values values =>
    let requested := values.positionals[0]?.bind fun text => Placement.readWord64? text.toList
    .noted (values.filter "parallel_sleep")
      (participate around joined start "parallel sleep fixture" "Coordinated sleep"
        (fun seat => (Schedule.plain seat requested).run)
        fun report => s!"slept {report.sleepSeconds}s")

def seedVariable : String := "FIXTURE_SEED"

/-- The seed given by option or else by variable, if there is one; a variable that cannot be read
is a fault. -/
def readSeed? (values : Values) (start : Start) : Option (Option UInt64) :=
  match values.option? "seed" with
  | some text => some (Placement.readWord64? text.toList)
  | none =>
    match lookupVariable start.environment seedVariable with
    | none => some none
    | some text => (Placement.readWord64? text.toList).map some

def faultyParallelName : String := "faulty_parallel_sleep"

def seededRun (around : Surroundings) (sleep : Option UInt64) (fault : Option FaultCode)
    (seed : UInt64) (seat : Seat) : Procedure (Except GroupError RunReport) := do
  Procedure.note ⟨.debug, .program faultyParallelName, some seat.rank,
    s!"Failing participant seed: {seed}"⟩
  match RunParameters.resolve? sleep fault seat.size around.attempts (KeyStream.draws seed) with
  | some (choice, _) => (Schedule.faulty seat choice).run
  | none => return .error (.protocol "No acceptable draw")

def faultyParallelSleep (around : Surroundings) (joined : Bool) (start : Start) : Job :=
  let refused := Job.refuse
    (complaint "Bad arguments.  Expecting optional sleep parameter and failure type.")
  match faultyParallelGrammar.read start.arguments with
  | .help => Job.help
  | .fault => refused
  | .values values =>
    match readSeed? values start with
    | none => refused
    | some seed =>
      let sleep := values.positionals[0]?.bind fun text => Placement.readWord64? text.toList
      let fault := values.positionals[1]?.bind fun text => readInt32? text.toList
      .noted (values.filter faultyParallelName)
        (participate around joined start "faulty parallel sleep fixture" "Coordinated run"
          (seededRun around sleep (fault.map .ofInt32) (seed.getD around.clockSeed))
          fun report => report.outcome.name)

end FaultDrill.Command
