import FaultDrill.Schedule
set_option autoImplicit false

namespace FaultDrill

inductive Cue (α : Type) where
  | usual
  | fail (error : GroupError)
  | give (answer : α)

/-- The answers to come, call by call. A call whose answers are used up gets the usual one. -/
structure Script where
  barrier : List (Cue Unit)
  send : List (Cue Unit)
  finalize : List (Cue Unit)
  recv : List (Cue (List UInt8))
  broadcast : List (Cue (List UInt8))
  departed : List (List Rank)

structure Transcript where
  script : Script
  outcome : FaultOutcome
  calls : List Call
  elapsed : Nat
  injected : List FaultCode
  printed : List String
  notes : List LogEntry

namespace Rehearsal
open Text

def longestSleep : Duration := .ofSeconds 946080000

def clip (time : Duration) : Nat := min time.totalNanos longestSleep.totalNanos

def cued {α : Type} (usual : Except GroupError α) : List (Cue α) → Except GroupError α
  | [] | .usual :: _ => usual
  | .fail error :: _ => .error error
  | .give answer :: _ => .ok answer

/-- The scripted answer to a call. A message is a line that names its source, and a broadcast
gives back what was passed to it. -/
def answer (script : Script) : (call : Call) → call.Answer × Script
  | .barrier => (cued (.ok ()) script.barrier, { script with barrier := script.barrier.drop 1 })
  | .send .. => (cued (.ok ()) script.send, { script with send := script.send.drop 1 })
  | .finalize => (cued (.ok ()) script.finalize, { script with finalize := script.finalize.drop 1 })
  | .recv source _ =>
    (cued (.ok (Utf8.encode s!"line from rank {source}")) script.recv,
      { script with recv := script.recv.drop 1 })
  | .broadcast _ payload =>
    let usual := match payload with
      | some bytes => .ok bytes
      | none => .error (.protocol "nothing to echo")
    (cued usual script.broadcast, { script with broadcast := script.broadcast.drop 1 })
  | .departed =>
    (script.departed.head?.getD [], { script with departed := script.departed.drop 1 })

def perform (t : Transcript) : (action : Action) → action.Answer × Transcript
  | .call call =>
    let (result, script) := answer t.script call
    (result, { t with script, calls := call :: t.calls })
  | .sleep time => ((), { t with elapsed := t.elapsed + clip time })
  | .inject code => (t.outcome, { t with injected := code :: t.injected })
  | .print text => ((), { t with printed := text :: t.printed })
  | .note entry => ((), { t with notes := entry :: t.notes })

def runFrom {α : Type} : Program Action.interface α → Transcript → α × Transcript
  | .done result, t => (result, t)
  | .ask action next, t =>
    let (answer, t) := perform t action
    runFrom (next answer) t

def run {α : Type} (schedule : Schedule α) (script : Script) (outcome : FaultOutcome) :
    Except GroupError α × Transcript :=
  let (result, t) := runFrom schedule.run ⟨script, outcome, [], 0, [], [], []⟩
  (result, { t with
    calls := t.calls.reverse
    injected := t.injected.reverse
    printed := t.printed.reverse
    notes := t.notes.reverse })

end Rehearsal
end FaultDrill
