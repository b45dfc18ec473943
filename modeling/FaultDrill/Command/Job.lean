import FaultDrill.Command.Arguments
import FaultDrill.Group.Run
import FaultDrill.Launcher
import FaultDrill.Log.Filter
set_option autoImplicit false

namespace FaultDrill.Command

def harmlessSignals : List Nat :=
  [Signal.chld, .cont, .urg, .winch, .tstp, .ttin, .ttou].map Signal.number

inductive JobEnd where
  | exited (code : UInt8)
  | failed (report : String)
  | killed (number : Nat)
  deriving DecidableEq

def JobEnd.status : JobEnd → WaitStatus
  | exited code => .exited code
  | failed _ => .exited 1
  | killed number => .killedBy number

abbrev Procedure (α : Type) : Type := Program Action.interface α

structure SentSignal where
  clock : Nat
  process : Nat
  number : Nat

structure Job where
  filter : LogFilter
  procedure : Procedure JobEnd
  sent : List SentSignal := []

def firstProcess : Nat := 1000

def childNumber (process before : Nat) : Nat := process * 1000 + before + 1

def parentOf (process : Nat) : Nat := (process - 1) / 1000

def ancestors (process : Nat) : List Nat :=
  if firstProcess < process then parentOf process :: ancestors (parentOf process) else []
termination_by process
decreasing_by simp only [parentOf, firstProcess] at *; omega

structure Start where
  arguments : List String
  environment : List (String × String)
  input : String := ""
  ignored : List Nat := []
  process : Nat := firstProcess

def Start.ignoredSignals (start : Start) : List Signal :=
  start.ignored.filterMap Signal.ofNumber?

namespace Procedure

def print (text : String) : Procedure Unit := .perform (I := Action.interface) (.print text)

def note (entry : LogEntry) : Procedure Unit := .perform (I := Action.interface) (.note entry)

def sleep (nanos : Nat) : Procedure Unit :=
  if nanos = 0 then return () else .perform (I := Action.interface) (.sleep (.ofNanos nanos))

end Procedure

/-- What a process does when, in nanoseconds after its start. -/
structure Course where
  printed : List (Nat × String)
  notes : List (Nat × LogEntry)
  sent : List SentSignal
  ended : Nat
  ending : JobEnd

namespace Course

def instant (text : String) (code : UInt8) : Course :=
  ⟨if text.isEmpty then [] else [(0, text)], [], [], 0, .exited code⟩

def text (course : Course) : String := String.join (course.printed.map Prod.snd)

def report? (course : Course) : Option String :=
  match course.ending with
  | .failed report => some report
  | _ => none

def procedureFrom (course : Course) (clock : Nat) : List (Nat × String) → Procedure JobEnd
  | [] => do
    Procedure.sleep (course.ended - clock)
    return course.ending
  | (due, text) :: rest => do
    Procedure.sleep (due - clock)
    Procedure.print text
    procedureFrom course (max clock due) rest

def procedure (course : Course) : Procedure JobEnd := course.procedureFrom 0 course.printed

def forever : Nat := Rehearsal.longestSleep.totalNanos

end Course

namespace Job

def noted (filter : LogFilter) (procedure : Procedure JobEnd) : Job := { filter, procedure }

def quiet (procedure : Procedure JobEnd) : Job := noted .silent procedure

def ofCourse (course : Course) : Job := { quiet course.procedure with sent := course.sent }

def exit (code : UInt8) : Job := quiet (return .exited code)

/-- The help text stands for itself. -/
def helpText : String := "<help>\n"

def help : Job := quiet do
  Procedure.print helpText
  return .exited 0

def refuse (lines : List String) : Job := quiet do
  Procedure.print (String.join (lines.map (· ++ "\n")))
  return .exited 1

def admits (job : Job) (entry : LogEntry) : Bool := job.filter.admits entry

end Job

def endingOf : Departure JobEnd → JobEnd
  | .returned ending => ending
  | .died signal => .killed signal.number

structure JobRun where
  printed : List (Sighting String)
  notes : List (Sighting LogEntry)
  sent : List SentSignal
  ends : List (Sighting (Departure JobEnd))

namespace JobRun

/-- More steps than anything takes that a person would wait for. -/
def patience : Nat := 1_000_000

def ofRun (job : Rank → Job) (run : GroupRun JobEnd) : JobRun where
  printed := run.printed
  notes := run.notes.filter fun seen => (job seen.who).admits seen.what
  sent := run.departures.flatMap fun departure =>
    (job departure.who).sent.filter fun signal => signal.clock ≤ departure.clock
  ends := run.departures

def ofGroup (size : UInt32) (ignored : List Signal) (job : Rank → Job) : JobRun :=
  let network := Network.formed size fun rank => (job rank).procedure
  ofRun job (GroupRun.finish (.onProcess ignored) patience (GroupRun.start network))

end JobRun

/-- What a job does that is its whole group. -/
def Job.course (job : Job) (ignored : List Signal) : Course :=
  let site : Site JobEnd := { communicator := .alone, activity := .running job.procedure }
  let run := GroupRun.finish (.onProcess ignored) JobRun.patience (GroupRun.start ⟨[site]⟩)
  let seen := JobRun.ofRun (fun _ => job) run
  let printed := seen.printed.map fun line => (line.clock, line.what)
  let notes := seen.notes.map fun line => (line.clock, line.what)
  match seen.ends.head? with
  | some departure => ⟨printed, notes, seen.sent, departure.clock, endingOf departure.what⟩
  | none => ⟨printed, notes, seen.sent, Course.forever, .killed Signal.kill.number⟩

end FaultDrill.Command
