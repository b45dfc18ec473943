import FaultDrill.Communicator
import FaultDrill.Proofs.Contract
set_option autoImplicit false

namespace FaultDrill

namespace Program

variable {I : Interface} {α β : Type} {P : I.Request → Prop}

def Asks (P : I.Request → Prop) (p : Program I α) : Prop :=
  p.Keeps ⟨fun _ : Unit => P, fun _ _ _ _ => True⟩ (fun _ _ => True) ()

theorem asks_pure (result : α) : (pure result : Program I α).Asks P := trivial

theorem asks_perform {request : I.Request} (h : P request) : (perform request).Asks P :=
  .perform h fun _ _ _ => trivial

theorem Asks.bind {p : Program I α} {after : α → Program I β} (h : p.Asks P)
    (rest : ∀ result, (after result).Asks P) : (p >>= after).Asks P :=
  Keeps.bind (Keeps.mono h fun _ result _ => rest result)

theorem Asks.next {request : I.Request} {next : I.Answer request → Program I α}
    (h : (ask request next).Asks P) (answer : I.Answer request) : (next answer).Asks P :=
  h.2 answer () trivial

end Program

/-- The exchanges that a call is made of. -/
def Call.Asks : Call → Exchange → Prop
  | barrier, .send _ frame => frame = .barrierEnter ∨ frame = .barrierRelease
  | barrier, .take _ wanted => wanted = .barrierEnter ∨ wanted = .barrierRelease
  | broadcast .., .send _ frame => ∃ payload, frame = .broadcast payload
  | broadcast .., .take _ wanted => wanted = .broadcast
  | send target tag payload, .send peer frame => peer = target ∧ frame = .data tag payload
  | recv source tag, .take peer wanted => peer = source ∧ wanted = .data tag
  | finalize, .hangUp => True
  | _, .note _ => True
  | _, _ => False

theorem Call.asks_note (call : Call) (entry : LogEntry) : call.Asks (.note entry) := by
  cases call <;> trivial

theorem Call.asks_data {call : Call} {peer : Rank} {tag : UInt32}
    (h : call.Asks (.take peer (.data tag))) : call = .recv peer tag := by
  cases call with
  | barrier => rcases h with h | h <;> cases h
  | recv source found =>
    obtain ⟨rfl, h⟩ := h
    cases h
    rfl
  | broadcast | send | departed | finalize => cases h

namespace Communicator

theorem note_asks (call : Call) (severity : Severity) (me : Rank) (message : String) :
    (note severity me message).Asks call.Asks :=
  Program.asks_perform (call.asks_note _)

theorem collect_asks (me : Rank) (peers : List Rank) :
    (collect me peers).Asks Call.barrier.Asks := by
  induction peers with
  | nil => exact Program.asks_pure _
  | cons peer rest ih =>
    apply (Program.asks_perform (.inl rfl)).bind
    intro taken
    cases taken with
    | failed => exact Program.asks_pure _
    | gone => exact (note_asks _ _ me _).bind fun _ => ih
    | frame => exact ih.bind fun _ => Program.asks_pure _

theorem sendAll_asks (call : Call) (me : Rank) {frame : Frame} (occasion : String)
    (sends : ∀ peer, call.Asks (.send peer frame)) (peers : List Rank) :
    (sendAll me frame occasion peers).Asks call.Asks := by
  induction peers with
  | nil => exact Program.asks_pure _
  | cons peer rest ih =>
    apply (Program.asks_perform (sends peer)).bind
    intro sent
    cases sent with
    | failed => exact Program.asks_pure _
    | gone => exact (note_asks _ _ me _).bind fun _ => ih
    | delivered => exact ih

theorem deliver_asks (call : Call) {peer : Rank} {frame : Frame} (lost : GroupError)
    (sends : call.Asks (.send peer frame)) : (deliver peer frame lost).Asks call.Asks := by
  apply (Program.asks_perform sends).bind
  intro sent
  cases sent <;> exact Program.asks_pure _

theorem await_asks (call : Call) {peer : Rank} {wanted : Wanted} (lost : GroupError)
    (takes : call.Asks (.take peer wanted)) : (await peer wanted lost).Asks call.Asks := by
  apply (Program.asks_perform takes).bind
  intro taken
  cases taken <;> exact Program.asks_pure _

theorem awaitPayload_asks (call : Call) {peer : Rank} {wanted : Wanted} (lost : GroupError)
    (takes : call.Asks (.take peer wanted)) : (awaitPayload peer wanted lost).Asks call.Asks :=
  (await_asks call lost takes).bind fun _ => Program.asks_pure _

variable (c : Communicator)

theorem barrier_asks : c.barrier.Asks Call.barrier.Asks := by
  unfold barrier
  split
  · exact Program.asks_pure _
  · apply (collect_asks _ _).bind
    intro present
    cases present with
    | error => exact Program.asks_pure _
    | ok present => exact sendAll_asks .barrier _ _ (fun _ => .inr rfl) present
  · apply (deliver_asks .barrier _ (.inl rfl)).bind
    intro entered
    cases entered with
    | error => exact Program.asks_pure _
    | ok => exact (await_asks .barrier _ (.inr rfl)).bind fun _ => Program.asks_pure _

theorem broadcast_asks (root : Rank) (payload : Option (List UInt8)) :
    (c.broadcast root payload).Asks (Call.broadcast root payload).Asks := by
  unfold broadcast
  split
  · exact Program.asks_pure _
  · split
    · exact awaitPayload_asks (.broadcast root payload) _ rfl
    · cases payload with
      | none => exact Program.asks_pure _
      | some bytes =>
        exact (sendAll_asks (.broadcast root _) _ _ (fun _ => ⟨bytes, rfl⟩) _).bind fun _ =>
          Program.asks_pure _

theorem conduct_asks (call : Call) : (c.conduct call).Asks call.Asks := by
  cases call with
  | barrier => exact c.barrier_asks
  | broadcast root payload => exact c.broadcast_asks root payload
  | send target tag payload =>
    change (c.send target tag payload).Asks _
    unfold send
    split
    · exact Program.asks_pure _
    · exact deliver_asks (.send target tag payload) _ ⟨rfl, rfl⟩
  | recv source tag =>
    change (c.recv source tag).Asks _
    unfold recv
    split
    · exact Program.asks_pure _
    · exact awaitPayload_asks (.recv source tag) _ ⟨rfl, rfl⟩
  | departed => exact Program.asks_pure _
  | finalize =>
    have hangs : Call.finalize.Asks .hangUp := trivial
    exact (Program.asks_perform hangs).bind fun _ =>
      (note_asks _ _ _ _).bind fun _ => Program.asks_pure _

end Communicator
end FaultDrill
