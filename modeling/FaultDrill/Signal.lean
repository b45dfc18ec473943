import FaultDrill.FaultCode
set_option autoImplicit false

namespace FaultDrill

inductive Signal where
  | hup | int | quit | ill | trap | abrt | bus | fpe | kill | usr1 | segv | usr2 | pipe | alrm
  | term | stkflt | chld | cont | stop | tstp | ttin | ttou | urg | xcpu | xfsz | vtalrm | prof
  | winch | io | pwr | sys
  deriving DecidableEq, Inhabited

namespace Signal

def all : List Signal :=
  [hup, int, quit, ill, trap, abrt, bus, fpe, kill, usr1, segv, usr2, pipe, alrm,
   term, stkflt, chld, cont, stop, tstp, ttin, ttou, urg, xcpu, xfsz, vtalrm, prof,
   winch, io, pwr, sys]

def name : Signal → String
  | hup => "SIGHUP" | int => "SIGINT" | quit => "SIGQUIT" | ill => "SIGILL"
  | trap => "SIGTRAP" | abrt => "SIGABRT" | bus => "SIGBUS" | fpe => "SIGFPE"
  | kill => "SIGKILL" | usr1 => "SIGUSR1" | segv => "SIGSEGV" | usr2 => "SIGUSR2"
  | pipe => "SIGPIPE" | alrm => "SIGALRM" | term => "SIGTERM" | stkflt => "SIGSTKFLT"
  | chld => "SIGCHLD" | cont => "SIGCONT" | stop => "SIGSTOP" | tstp => "SIGTSTP"
  | ttin => "SIGTTIN" | ttou => "SIGTTOU" | urg => "SIGURG" | xcpu => "SIGXCPU"
  | xfsz => "SIGXFSZ" | vtalrm => "SIGVTALRM" | prof => "SIGPROF" | winch => "SIGWINCH"
  | io => "SIGIO" | pwr => "SIGPWR" | sys => "SIGSYS"

instance : ToString Signal := ⟨name⟩

def number (s : Signal) : Nat := all.idxOf s + 1

def ofNumber? : Nat → Option Signal
  | 0 => none
  | n + 1 => all[n]?

end Signal

namespace FaultCode

/-- The signal that a code sends to its own process; codes 0 and 1 trap in hardware instead. -/
def signal? : FaultCode → Option Signal
  | floatingPoint => some .fpe
  | illegalInstruction => some .ill
  | segmentation => some .segv
  | bus => some .bus
  | abort => some .abrt
  | hangup => some .hup
  | interrupt => some .int
  | quit => some .quit
  | terminate => some .term
  | kill => some .kill
  | nullDereference | divideByZero | unrecognized _ => none

/-- The signal that an observer sees the process die of, none for the codes that do nothing. -/
def termination? : FaultCode → Option Signal
  | nullDereference => some .segv
  | divideByZero => some .fpe
  | code => code.signal?

end FaultCode
end FaultDrill
