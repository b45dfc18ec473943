import FaultDrill.Network
set_option autoImplicit false

namespace FaultDrill

structure Reply where
  call : Call
  answer : call.Answer

abbrev Session : Type := Network Reply

namespace Session

def single (call : Call) : Program Action.interface Reply :=
  .ask (.call call) fun answer => .done ⟨call, answer⟩

def idle : Program Action.interface Reply := .done ⟨.departed, []⟩

def formed (size : UInt32) : Session := Network.formed size fun _ => idle

def alone : Session := ⟨[{ communicator := .alone, activity := .running idle }]⟩

/-- How a write to a participant that has left turns out here: it is noticed at once. -/
def choice : Choice := ⟨true, .survived, none⟩

def advance? (net : Session) : List Rank → Option (Session × List Event)
  | [] => none
  | who :: rest =>
    match net.proceed? who choice with
    | some result => some result
    | none => advance? net rest

def settle (who : List Rank) : (steps : Nat) → Session → Session × List Event
  | 0, net => (net, [])
  | steps + 1, net =>
    match advance? net who with
    | none => (net, [])
    | some (net, events) =>
      let (net, later) := settle who steps net
      (net, events ++ later)

/-- More steps than calls by everybody at once can take: each of them exchanges at most two
frames with each other participant and says something about it. -/
def patience (net : Session) : Nat := 16 * (net.sites.length + 4) * (net.sites.length + 4)

def notes (events : List Event) : List LogEntry :=
  events.filterMap fun
    | .noted entry => some entry
    | _ => none

def reply? (net : Session) (who : Rank) : Option Reply := (net.site? who).bind Site.result?

def start (net : Session) (who : Rank) (call : Call) : Session :=
  net.setActivity who (.running (single call))

def together (net : Session) (calls : List (Rank × Call)) :
    Session × List (Option Reply) × List LogEntry :=
  let started := calls.foldl (fun net (who, call) => start net who call) net
  let (settled, events) := settle (calls.map Prod.fst) (patience net) started
  (settled, calls.map fun (who, _) => reply? settled who, notes events)

def drop (net : Session) (who : Rank) : Session := net.crash who 0

def write (net : Session) (who peer : Rank) (bytes : List UInt8) : Session :=
  net.carry who peer bytes

def read (net : Session) (who peer : Rank) :
    Session × Option (Except ComponentError (Option Frame)) :=
  match net.end? who peer with
  | none => (net, some (.ok none))
  | some link =>
    let (result, link) := link.readNext (!net.isOpen peer who)
    (net.update who fun site => { site with communicator := site.communicator.setLink link },
      result)

inductive Order where
  | calls (calls : List (Rank × Call))
  | drop (who : Rank)
  | write (who peer : Rank) (bytes : List UInt8)
  | read (who peer : Rank)
  | show (who : Rank)

inductive Report where
  | replies (replies : List (Option Reply))
  | dropped
  | written
  | frame (result : Option (Except ComponentError (Option Frame)))
  | communicator (c : Option Communicator)

def Report.isBlocked : Report → Bool
  | replies answers => answers.any Option.isNone
  | frame result => result.isNone
  | _ => false

def obey (net : Session) : Order → Session × Report × List LogEntry
  | .calls calls =>
    let (net, replies, notes) := net.together calls
    (net, .replies replies, notes)
  | .drop who => (net.drop who, .dropped, [])
  | .write who peer bytes => (net.write who peer bytes, .written, [])
  | .read who peer =>
    let (net, result) := net.read who peer
    (net, .frame result, [])
  | .show who => (net, .communicator ((net.site? who).map Site.communicator), [])

/-- Follows orders one after the other, up to the first that something waits in vain at. -/
def play (net : Session) : List Order → List (Report × List LogEntry)
  | [] => []
  | order :: rest =>
    let (net, report, notes) := net.obey order
    if report.isBlocked then [(report, notes)] else (report, notes) :: play net rest

end Session
end FaultDrill
