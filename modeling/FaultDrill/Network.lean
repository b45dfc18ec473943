import FaultDrill.Communicator
set_option autoImplicit false

/-!
# Networks

A group in motion: every participant with its communicator and with what is left of its program.
One step lets one participant do one thing: start or finish a call, send or wait for a frame,
sleep, print, or be given a fault. A step of a participant that waits for something that has not
come is impossible, and impossible steps are how blocking shows. Which participant goes next is
not said here, so every interleaving is a list of moves.

Bytes arrive as soon as they are written. A participant that leaves closes its ends of all its
connections; what it wrote before stays readable, and after that the other side finds it gone.
A connection may also break down under an exchange, which then moves no bytes.
-/
namespace FaultDrill

inductive Activity (α : Type) where
  | running (rest : Program Action.interface α)
  | calling (call : Call) (rest : Conduct call.Answer)
      (next : call.Answer → Program Action.interface α)
  /-- It has left, with the result of its program if it came to one. -/
  | left (result : Option α)

structure Site (α : Type) where
  communicator : Communicator
  activity : Activity α

namespace Site

variable {α : Type}

def rank (site : Site α) : Rank := site.communicator.rank

def link? (site : Site α) (peer : Rank) : Option Link := site.communicator.topology.link? peer

def result? (site : Site α) : Option α :=
  match site.activity with
  | .running (.done result) => some result
  | .left result => result
  | _ => none

end Site

inductive Event where
  | started (call : Call)
  | finished (call : Call) (answer : call.Answer)
  | slept (time : Duration)
  | injected (code : FaultCode) (outcome : FaultOutcome)
  | printed (text : String)
  | noted (entry : LogEntry)

/-- What a step leaves open: whether a write to a participant that has left is noticed, what an
injector answers, and whether a connection breaks down. -/
structure Choice where
  noticed : Bool
  outcome : FaultOutcome
  breakdown : Option FaultKind
  deriving DecidableEq

inductive Move where
  | proceed (who : Rank) (choice : Choice)
  | leave (who : Rank)
  /-- A participant goes away wherever it is. Of a frame it was about to send the first bytes may
  have been written. -/
  | crash (who : Rank) (written : Nat)
  deriving DecidableEq

structure Network (α : Type) where
  sites : List (Site α)

namespace Network

variable {α : Type}

/-- A group that has just been formed. It has a coordinator whatever its size is. -/
def formed (size : UInt32) (program : Rank → Program Action.interface α) : Network α :=
  ⟨(.coordinator :: Rank.members size).map fun rank =>
    { communicator := if rank.isCoordinator then .coordinator size else .member rank size
      activity := .running (program rank) }⟩

def site? (net : Network α) (who : Rank) : Option (Site α) :=
  net.sites.find? fun site => site.rank == who

def update (net : Network α) (who : Rank) (f : Site α → Site α) : Network α :=
  ⟨net.sites.map fun site => if site.rank = who then f site else site⟩

def setActivity (net : Network α) (who : Rank) (activity : Activity α) : Network α :=
  net.update who fun site => { site with activity }

/-- The end of the connection between two participants that the first one holds. -/
def end? (net : Network α) (holder peer : Rank) : Option Link :=
  (net.site? holder).bind fun site => site.link? peer

def isOpen (net : Network α) (holder peer : Rank) : Bool :=
  (net.end? holder peer).any Link.live

def setCommunicator (net : Network α) (who : Rank) (c : Communicator) : Network α :=
  net.update who fun site => { site with communicator := c }

def carry (net : Network α) (source target : Rank) (bytes : List UInt8) : Network α :=
  match net.site? target with
  | none => net
  | some site =>
    match site.link? source with
    | some link => net.setCommunicator target (site.communicator.setLink (link.receive bytes))
    | none => net

def hangUp (net : Network α) (who : Rank) : Network α :=
  net.update who fun site => { site with communicator := site.communicator.hangUp }

/-- What becomes of bytes that a participant writes to another. -/
def reception (net : Network α) (who peer : Rank) (choice : Choice) : Reception :=
  match choice.breakdown with
  | some kind => .refused kind
  | none => if choice.noticed && !net.isOpen peer who then .refused .brokenPipe else .accepted

/-- What a participant meets on its links: the end of the others that have closed theirs, failing
writes to them if those are noticed, and breakdowns. -/
def conditions (net : Network α) (who : Rank) (choice : Choice) : Communicator.Conditions where
  ended peer := !net.isOpen peer who
  reception peer := net.reception who peer choice
  breakdown := choice.breakdown

def exchange? (net : Network α) (who : Rank) (choice : Choice) (exchange : Exchange) :
    Option (Option exchange.Answer × Network α) := do
  let site ← net.site? who
  let effect ← site.communicator.exchange? (net.conditions who choice) exchange
  let net := net.setCommunicator who effect.communicator
  match effect.bytes with
  | some (peer, bytes) => some (effect.answer, net.carry who peer bytes)
  | none => some (effect.answer, net)

def noteOf : Exchange → List Event
  | .note entry => [.noted entry]
  | _ => []

def proceed? (net : Network α) (who : Rank) (choice : Choice) :
    Option (Network α × List Event) := do
  let site ← net.site? who
  let resume (rest : Program Action.interface α) (events : List Event) :=
    some (net.setActivity who (.running rest), events)
  match site.activity with
  | .left _ | .running (.done _) => none
  | .running (.ask (.call call) next) =>
    some (net.setActivity who (.calling call (site.communicator.conduct call) next),
      [.started call])
  | .running (.ask (.sleep time) next) => resume (next ()) [.slept time]
  | .running (.ask (.inject code) next) =>
    resume (next choice.outcome) [.injected code choice.outcome]
  | .running (.ask (.print text) next) => resume (next ()) [.printed text]
  | .running (.ask (.note entry) next) => resume (next ()) [.noted entry]
  | .calling call (.done answer) next => resume (next answer) [.finished call answer]
  | .calling call (.ask exchange rest) next =>
    let (answer, net) ← net.exchange? who choice exchange
    match answer with
    | none => some (net, [])
    | some answer =>
      some (net.setActivity who (.calling call (rest answer) next), noteOf exchange)

def leave? (net : Network α) (who : Rank) : Option (Network α) := do
  let site ← net.site? who
  match site.activity with
  | .running (.done result) => some ((net.hangUp who).setActivity who (.left (some result)))
  | _ => none

def Site.sending? (site : Site α) : Option (Rank × Frame) :=
  match site.activity with
  | .calling _ (.ask (.send peer frame) _) _ => some (peer, frame)
  | _ => none

def carryPart (net : Network α) (who : Rank) (written : Nat) : Network α :=
  match (net.site? who).bind Site.sending? with
  | some (peer, frame) =>
    match frame.packet with
    | .ok bytes =>
      if net.isOpen who peer then net.carry who peer (bytes.take (min written (bytes.length - 1)))
      else net
    | .error _ => net
  | none => net

def crash (net : Network α) (who : Rank) (written : Nat) : Network α :=
  ((net.carryPart who written).hangUp who).setActivity who (.left none)

/-- One move, and what is seen of it. -/
def move? (net : Network α) : Move → Option (Network α × List Event)
  | .proceed who choice => net.proceed? who choice
  | .leave who => (net.leave? who).map fun net => (net, [])
  | .crash who written =>
    if (net.site? who).isSome then some (net.crash who written, []) else none

end Network
end FaultDrill
