import FaultDrill.Rank
set_option autoImplicit false

namespace FaultDrill

inductive Severity where
  | error | warn | info | debug | trace
  deriving DecidableEq, Inhabited

namespace Severity

def name : Severity → String
  | error => "ERROR"
  | warn => "WARN"
  | info => "INFO"
  | debug => "DEBUG"
  | trace => "TRACE"

/-- From 1 for the most severe to 5 for the least. -/
def verbosity : Severity → Nat
  | error => 1
  | warn => 2
  | info => 3
  | debug => 4
  | trace => 5

end Severity

inductive Origin where
  | startup
  | serial
  | injector
  | schedule
  | group
  | program (name : String)
  deriving DecidableEq

def Origin.path : Origin → String
  | startup => "shared::logging"
  | serial => "injector::serial"
  | injector => "injector::services::process_injector"
  | schedule => "coordinator::protocol"
  | group => "coordinator::services::group"
  | program name => name

structure LogEntry where
  severity : Severity
  origin : Origin
  rank : Option Rank
  message : String
  deriving DecidableEq

namespace LogEntry

def render (entry : LogEntry) : String :=
  let place := match entry.rank with
    | none => "-"
    | some rank => toString rank
  s!"{entry.severity.name} {place} {entry.message}"

def startup (rank : Rank) (details : String) : LogEntry :=
  ⟨.info, .startup, some rank, s!"🚀 Starting {details}"⟩

def shutdown (rank : Rank) (reason : String) : LogEntry :=
  ⟨.info, .startup, some rank, s!"🛑 Shutting down: {reason}"⟩

def failure (rank : Rank) (context reason : String) : LogEntry :=
  ⟨.error, .startup, some rank, s!"❌ {context} failed: {reason}"⟩

/-- The names of what a line carries: its message, with a rank also a time, and with a failure
also the failure. -/
def fields (entry : LogEntry) : List String :=
  match entry.rank with
  | none => ["message"]
  | some _ =>
    ["message", "rank", "timestamp"] ++ if entry.severity = .error then ["error"] else []

/-- The lines as they are read afterwards: those without a rank first, then rank by rank, and
within a rank in the order of time. -/
def arrange (entries : List LogEntry) : List LogEntry :=
  entries.mergeSort fun a b =>
    match a.rank, b.rank with
    | none, _ => true
    | some _, none => false
    | some r, some s => r.index ≤ s.index

end LogEntry

end FaultDrill
