import FaultDrill.Call
set_option autoImplicit false

namespace FaultDrill

inductive Fate where
  | answers (outcome : FaultOutcome)
  | dies (signal : Signal)
  deriving DecidableEq

structure Injection where
  printed : List String
  notes : List LogEntry
  fate : Fate

abbrev Injector : Type := FaultCode → Injection

namespace Injector

def recording (outcome : FaultOutcome) : Injector := fun _ => ⟨[], [], .answers outcome⟩

/-- Whether a raised signal acts on a process that ignores the given signals. -/
def acts (ignored : List Signal) (signal : Signal) : Bool :=
  signal == .kill || signal == .segv || signal == .bus || !ignored.contains signal

/-- Raises the signal of a code: the signal that the process dies of, or none if it survives. -/
def raise (ignored : List Signal) (code : FaultCode) : Except InjectionError (Option Signal) :=
  match code.signal? with
  | none => .error (.notASignal code.toInt32)
  | some signal => .ok (if acts ignored signal then some signal else none)

def note (severity : Severity) (message : String) : LogEntry :=
  ⟨severity, .injector, none, message⟩

def warn (message : String) : LogEntry := note .warn message

def onProcess (ignored : List Signal) : Injector := fun code =>
  let printed := [code.description ++ "\n"]
  let survived := warn s!"⚠️ Process survived fault code {code}"
  match code with
  | .unrecognized raw =>
    ⟨printed, [note .info s!"No fault mapped to code {raw}, continuing"], .answers .survived⟩
  | .nullDereference =>
    ⟨printed, [warn "💀 Reading through the null page"], .dies .segv⟩
  | .divideByZero => ⟨printed, [warn "💀 Dividing by zero"], .dies .fpe⟩
  | _ =>
    let raising := warn s!"💀 Raising signal for fault code {code}"
    match raise ignored code with
    | .ok (some signal) => ⟨printed, [raising], .dies signal⟩
    | .ok none => ⟨printed, [raising, survived], .answers .survived⟩
    | .error error =>
      ⟨printed, [raising, note .error s!"❌ Fault injection failed: {error.message}", survived],
        .answers .survived⟩

end Injector
end FaultDrill
