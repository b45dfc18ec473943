import FaultDrill.Proofs.Delivery
set_option autoImplicit false

namespace FaultDrill
open Network

def recital : Contract Exchange.interface (List Answered) where
  due _ _ := True
  follows history exchange answer history' :=
    Answered.Fits exchange answer ∧ history' = history ++ [⟨exchange, answer⟩]

def GroupError.IsLoss (source : Rank) (error : GroupError) : Prop :=
  error = .peerDeparted source ∨ error = .coordinatorLost

instance (source : Rank) (error : GroupError) : Decidable (error.IsLoss source) :=
  inferInstanceAs (Decidable (_ ∨ _))

/-- The answer of a call fits the exchanges that the call made. -/
structure Reply.Shows (reply : Reply) (history : List Answered) : Prop where
  received : ∀ peer tag, payloads (.data tag) (history.filterMap (Step.takenFrom? peer)) =
    (reply.received? peer tag).toList
  closing : ⟨.hangUp, ()⟩ ∈ history → reply.call = .finalize
  missing : ∀ source tag error, reply = ⟨.recv source tag, .error error⟩ → error.IsLoss source →
    history = [⟨.take source (.data tag), .gone⟩]

/-- Exchanges that take no message and close nothing. -/
def Network.Answered.IsPlain : Answered → Prop
  | ⟨.take _ (.data _), _⟩ | ⟨.hangUp, _⟩ => False
  | ⟨exchange, answer⟩ => Answered.Fits exchange answer

theorem Network.Answered.IsPlain.payloads {answered : Answered} (h : answered.IsPlain) (peer : Rank)
    (tag : UInt32) : payloads (.data tag) (Step.takenFrom? peer answered).toList = [] := by
  obtain ⟨exchange, answer⟩ := answered
  cases exchange with
  | send target frame => cases answer <;> rfl
  | hangUp => exact h.elim
  | note => rfl
  | take source wanted =>
    cases answer with
    | gone | failed => rfl
    | frame found =>
      have refused : (Wanted.data tag).accepts found = false := by
        cases wanted with
        | data => exact h.elim
        | barrierEnter | barrierRelease | broadcast => cases found <;> first | rfl | cases h
      by_cases hs : source = peer
      · simp [Step.takenFrom?, hs, FaultDrill.payloads, refused]
      · simp [Step.takenFrom?, hs, FaultDrill.payloads]

theorem payloads_plain {history : List Answered} (h : ∀ answered ∈ history, answered.IsPlain)
    (peer : Rank) (tag : UInt32) :
    payloads (.data tag) (history.filterMap (Step.takenFrom? peer)) = [] := by
  induction history with
  | nil => rfl
  | cons answered rest ih =>
    obtain ⟨plain, others⟩ := List.forall_mem_cons.mp h
    have hone : (answered :: rest).filterMap (Step.takenFrom? peer) =
        (Step.takenFrom? peer answered).toList ++ rest.filterMap (Step.takenFrom? peer) := by
      cases ht : Step.takenFrom? peer answered <;> simp [ht]
    rw [hone, payloads_append, plain.payloads, ih others, List.append_nil]

theorem Reply.shows_plain {reply : Reply} {history : List Answered}
    (h : ∀ answered ∈ history, answered.IsPlain)
    (silent : ∀ peer tag, reply.received? peer tag = none)
    (other : ∀ source tag error, reply = ⟨.recv source tag, .error error⟩ → ¬error.IsLoss source) :
    reply.Shows history where
  received peer tag := by rw [payloads_plain h, silent, Option.toList_none]
  closing hm := (h _ hm).elim
  missing source tag error heq loss := absurd loss (other source tag error heq)

namespace Communicator

def IsPlain {β : Type} (p : Conduct β) : Prop :=
  ∀ history, (∀ answered ∈ history, Answered.IsPlain answered) →
    p.Keeps recital (fun history' _ => ∀ answered ∈ history', Answered.IsPlain answered) history

theorem isPlain_pure {β : Type} (result : β) : IsPlain (pure result) := fun _ h => h

theorem IsPlain.bind {β γ : Type} {p : Conduct β} {after : β → Conduct γ} (h : IsPlain p)
    (rest : ∀ result, IsPlain (after result)) : IsPlain (p >>= after) :=
  fun history plain => .bind ((h history plain).mono fun _ result plain' => rest result _ plain')

theorem isPlain_perform {exchange : Exchange}
    (h : ∀ answer, Answered.Fits exchange answer → Answered.IsPlain ⟨exchange, answer⟩) :
    IsPlain (.perform (I := Exchange.interface) exchange) := by
  intro history plain
  apply Program.Keeps.perform trivial
  rintro answer _ ⟨fits, rfl⟩ answered hm
  rcases List.mem_append.mp hm with hm | hm
  · exact plain answered hm
  · obtain rfl := List.mem_singleton.mp hm
    exact h answer fits

theorem note_plain (severity : Severity) (me : Rank) (message : String) :
    IsPlain (note severity me message) :=
  isPlain_perform fun _ fits => fits

theorem sendTo_plain (peer : Rank) (frame : Frame) : IsPlain (sendTo peer frame) :=
  isPlain_perform fun _ fits => fits

theorem takeFrom_plain (peer : Rank) {wanted : Wanted} (h : ∀ tag, wanted ≠ .data tag) :
    IsPlain (takeFrom peer wanted) := by
  apply isPlain_perform
  intro answer fits
  cases wanted with
  | data tag => exact absurd rfl (h tag)
  | barrierEnter | barrierRelease | broadcast => exact fits

theorem collect_plain (me : Rank) (peers : List Rank) : IsPlain (collect me peers) := by
  induction peers with
  | nil => exact isPlain_pure _
  | cons peer rest ih =>
    apply (takeFrom_plain peer (by simp)).bind
    intro taken
    cases taken with
    | failed => exact isPlain_pure _
    | gone => exact (note_plain _ _ _).bind fun _ => ih
    | frame => exact ih.bind fun _ => isPlain_pure _

theorem sendAll_plain (me : Rank) (frame : Frame) (occasion : String) (peers : List Rank) :
    IsPlain (sendAll me frame occasion peers) := by
  induction peers with
  | nil => exact isPlain_pure _
  | cons peer rest ih =>
    apply (sendTo_plain peer frame).bind
    intro sent
    cases sent with
    | failed => exact isPlain_pure _
    | gone => exact (note_plain _ _ _).bind fun _ => ih
    | delivered => exact ih

theorem deliver_plain (peer : Rank) (frame : Frame) (lost : GroupError) :
    IsPlain (deliver peer frame lost) := by
  apply (sendTo_plain peer frame).bind
  intro sent
  cases sent <;> exact isPlain_pure _

theorem await_plain (peer : Rank) {wanted : Wanted} (lost : GroupError)
    (h : ∀ tag, wanted ≠ .data tag) : IsPlain (await peer wanted lost) := by
  apply (takeFrom_plain peer h).bind
  intro taken
  cases taken <;> exact isPlain_pure _

variable (c : Communicator)

theorem barrier_plain : IsPlain c.barrier := by
  unfold barrier
  split
  · exact isPlain_pure _
  · apply (collect_plain _ _).bind
    intro present
    cases present with
    | error => exact isPlain_pure _
    | ok => exact sendAll_plain _ _ _ _
  · apply (deliver_plain _ _ _).bind
    intro entered
    cases entered with
    | error => exact isPlain_pure _
    | ok => exact (await_plain _ _ (by simp)).bind fun _ => isPlain_pure _

theorem broadcast_plain (root : Rank) (payload : Option (List UInt8)) :
    IsPlain (c.broadcast root payload) := by
  unfold broadcast
  split
  · exact isPlain_pure _
  · split
    · exact (await_plain _ _ (by simp)).bind fun _ => isPlain_pure _
    · cases payload with
      | none => exact isPlain_pure _
      | some bytes => exact (sendAll_plain _ _ _ _).bind fun _ => isPlain_pure _

theorem send_plain (target : Rank) (tag : UInt32) (payload : List UInt8) :
    IsPlain (c.send target tag payload) := by
  unfold send
  split
  · exact isPlain_pure _
  · exact deliver_plain _ _ _

theorem IsPlain.shows {call : Call} {p : Conduct call.Answer} (h : IsPlain p)
    (silent : ∀ answer peer tag, Reply.received? peer tag ⟨call, answer⟩ = none)
    (other : ∀ source tag, call ≠ .recv source tag) :
    p.Keeps recital (fun history answer => Reply.Shows ⟨call, answer⟩ history) [] := by
  apply (h [] (List.forall_mem_nil _)).mono
  intro history answer plain
  apply Reply.shows_plain plain (silent answer)
  intro source tag error heq
  exact absurd (congrArg Reply.call heq) (other source tag)

theorem route_error {other : Rank} {error : GroupError} (h : c.route other = .error error) :
    ¬error.IsLoss other := by
  have unroutable : error = .unroutable c.rank other := by
    unfold route at h
    split at h
    · split at h
      · cases h
      · exact (Except.error.inj h).symm
    · split at h
      · cases h
      · exact (Except.error.inj h).symm
  rw [unroutable]
  rintro (h | h) <;> cases h

theorem recv_shows (source : Rank) (tag : UInt32) :
    (c.recv source tag).Keeps recital
      (fun history answer => Reply.Shows ⟨.recv source tag, answer⟩ history) [] := by
  unfold recv
  split
  · rename_i error hroute
    apply Reply.shows_plain (List.forall_mem_nil _) (fun _ _ => rfl)
    rintro _ _ _ ⟨⟩
    exact c.route_error hroute
  · -- The call makes one exchange, and its answer is what that exchange came to.
    apply Program.Keeps.bind
    apply Program.Keeps.bind
    apply Program.Keeps.perform trivial
    rintro answer _ ⟨fits, rfl⟩
    cases answer with
    | failed error =>
      refine ⟨fun _ _ => rfl, by simp, ?_⟩
      rintro _ _ _ ⟨⟩ (h | h) <;> cases h
    | gone =>
      refine ⟨fun _ _ => rfl, by simp, ?_⟩
      rintro _ _ _ ⟨⟩ -
      rfl
    | frame found =>
      cases found with
      | join | barrierEnter | barrierRelease | broadcast => cases fits
      | data tag' payload =>
        obtain rfl : tag' = tag := by simpa [Answered.Fits, Wanted.accepts] using fits
        change Reply.Shows ⟨.recv source tag', .ok payload⟩ _
        refine ⟨fun peer other => ?_, by simp, fun _ _ _ heq => by cases heq⟩
        by_cases hs : source = peer <;> by_cases ht : tag' = other <;>
          simp [Step.takenFrom?, Reply.received?, payloads, Wanted.accepts, Frame.payload?, hs, ht]

theorem conduct_shows (call : Call) :
    (c.conduct call).Keeps recital (fun history answer => Reply.Shows ⟨call, answer⟩ history)
      [] := by
  cases call with
  | barrier => exact c.barrier_plain.shows (fun _ _ _ => rfl) nofun
  | broadcast root payload =>
    exact (c.broadcast_plain root payload).shows (fun answer _ _ => by cases answer <;> rfl) nofun
  | send target tag payload =>
    exact (c.send_plain target tag payload).shows (fun _ _ _ => rfl) nofun
  | recv source tag => exact c.recv_shows source tag
  | departed => exact (isPlain_pure _).shows (fun _ _ _ => rfl) nofun
  | finalize =>
    apply Program.Keeps.bind
    apply Program.Keeps.perform trivial
    rintro _ _ ⟨-, rfl⟩
    apply Program.Keeps.bind
    apply Program.Keeps.perform trivial
    rintro _ _ ⟨-, rfl⟩
    exact ⟨fun _ _ => rfl, fun _ => rfl, fun _ _ _ heq => by cases heq⟩

end Communicator

namespace Network

variable {α : Type} {steps : List (Step α)} {net net' : Network α} {who : Rank}
  {entries : List (Reply × List Answered)} {current : List Answered}

def Recites (net : Network α) (who : Rank) (current : List Answered) : Prop :=
  match net.activity? who with
  | some (.calling call rest _) =>
    rest.Keeps recital (fun history answer => Reply.Shows ⟨call, answer⟩ history) current
  | some (.running _) => current = []
  | _ => True

/-- The exchanges of a participant, cut up by the calls that made them. -/
structure Ledger (steps : List (Step α)) (net : Network α) (who : Rank)
    (entries : List (Reply × List Answered)) (current : List Answered) : Prop where
  told : replies steps who = entries.map Prod.fst
  made : exchanges steps who = entries.flatMap Prod.snd ++ current
  shown : ∀ entry ∈ entries, entry.1.Shows entry.2
  going : net.Recites who current

theorem recites_calling {call : Call} {rest : Conduct call.Answer}
    {next : call.Answer → Program Action.interface α}
    (h : net.activity? who = some (.calling call rest next)) (current : List Answered) :
    net.Recites who current ↔
      rest.Keeps recital (fun history answer => Reply.Shows ⟨call, answer⟩ history) current := by
  rw [Recites, h]

theorem recites_running {rest : Program Action.interface α}
    (h : net.activity? who = some (.running rest)) (current : List Answered) :
    net.Recites who current ↔ current = [] := by
  rw [Recites, h]

theorem recites_left {result : Option α} (h : net.activity? who = some (.left result))
    (current : List Answered) : net.Recites who current := by
  rw [Recites, h]
  trivial

namespace Ledger

variable {step : Step α} {current' : List Answered}

theorem other (h : Ledger steps net who entries current) (mover : step.move.who ≠ who)
    (doing : net'.activity? who = net.activity? who) :
    Ledger (steps ++ [step]) net' who entries current := by
  refine ⟨?_, ?_, h.shown, ?_⟩
  · rw [replies, seenOf_other mover]
    exact h.told
  · rw [exchanges_next, if_neg mover, List.append_nil]
    exact h.made
  · rw [Recites, doing]
    exact h.going

theorem grow (h : Ledger steps net who entries current) (mover : step.move.who = who)
    (unseen : step.seen.filterMap Event.reply? = [])
    (made : current ++ step.answered?.toList = current') (going : net'.Recites who current') :
    Ledger (steps ++ [step]) net' who entries current' := by
  refine ⟨?_, ?_, h.shown, going⟩
  · rw [replies_next steps mover, unseen, List.append_nil]
    exact h.told
  · rw [exchanges_next, if_pos mover, h.made, List.append_assoc, made]

theorem close (h : Ledger steps net who entries current) (mover : step.move.who = who)
    {reply : Reply} (seen : step.seen.filterMap Event.reply? = [reply])
    (silent : step.answered? = none) (shown : reply.Shows current)
    (going : net'.Recites who []) :
    Ledger (steps ++ [step]) net' who (entries ++ [(reply, current)]) [] := by
  refine ⟨?_, ?_, ?_, going⟩
  · rw [replies_next steps mover, seen, h.told, List.map_append]
    rfl
  · rw [exchanges_next, if_pos mover, silent, h.made, List.flatMap_append, List.flatMap_singleton]
    rfl
  · intro entry hm
    rcases List.mem_append.mp hm with hm | hm
    · exact h.shown entry hm
    · obtain rfl := List.mem_singleton.mp hm
      exact shown

theorem next {size : UInt32} (h : Ledger steps net who entries current)
    (fidelity : Fidelity size steps net) {move : Move} {seen : List Event} (mover : move.who = who)
    (hm : net.Moved move net' seen (Step.mk net move net' seen).answered?) :
    ∃ entries' current',
      Ledger (steps ++ [⟨net, move, net', seen⟩]) net' who entries' current' := by
  subst mover
  generalize hans : (Step.mk net move net' seen).answered? = answered at hm
  cases hm with
  | leave doing =>
    exact ⟨entries, current, h.grow rfl rfl (by rw [hans]; exact List.append_nil _)
      (recites_left (activity_leave doing _) _)⟩
  | crash there =>
    exact ⟨entries, current, h.grow rfl rfl (by rw [hans]; exact List.append_nil _)
      (recites_left (activity_crash there _) _)⟩
  | @proceed who choice _ _ _ proceeds =>
    rw [Move.who] at h ⊢
    cases proceeds with
    | @start call next c doing has =>
      obtain rfl := (recites_running doing _).mp h.going
      refine ⟨entries, [], h.grow rfl rfl (by rw [hans]; rfl) ?_⟩
      rw [recites_calling (activity_setActivity_self doing _)]
      exact c.conduct_shows call
    | @act action next answer event doing comes =>
      obtain rfl := (recites_running doing _).mp h.going
      have hevent : [event].filterMap Event.reply? = [] := by
        cases action <;> cases comes <;> rfl
      refine ⟨entries, [], h.grow rfl hevent (by rw [hans]; rfl) ?_⟩
      exact (recites_running (activity_setActivity_self doing _) _).mpr rfl
    | @finish call answer next doing =>
      have shown := (recites_calling doing _).mp h.going
      have going := (recites_running (activity_setActivity_self doing (.running (next answer))) [])
      exact ⟨_, [], h.close rfl rfl hans shown (going.mpr rfl)⟩
    | @wait call exchange rest next _ doing comes =>
      have same := congrFun (fidelity.exchanged comes).alike.activity who
      refine ⟨entries, current, h.grow rfl rfl (by rw [hans]; exact List.append_nil _) ?_⟩
      rw [Recites, same]
      exact h.going
    | @exchange call exchange rest next answer after doing comes =>
      have hx := fidelity.exchanged comes
      have doing' := (congrFun hx.alike.activity who).trans doing
      obtain ⟨-, follows⟩ := (recites_calling doing _).mp h.going
      refine ⟨entries, current ++ [⟨exchange, answer⟩],
        h.grow rfl (noteOf_replies exchange) (by rw [hans]; rfl) ?_⟩
      rw [recites_calling (activity_setActivity_self doing' _)]
      exact follows answer _ ⟨hx.fits, rfl⟩

/-- The exchange that let waiting for a message fail, and the calls before it. -/
theorem missing (h : Ledger steps net who entries current) {source : Rank} {tag : UInt32}
    {error : GroupError} {before after : List Reply}
    (missed : replies steps who = before ++ ⟨.recv source tag, .error error⟩ :: after)
    (loss : error.IsLoss source) :
    ∃ (past : List (Reply × List Answered)) (later : List Answered),
      past.map Prod.fst = before ∧ (∀ entry ∈ past, entry.1.Shows entry.2) ∧
      exchanges steps who =
        past.flatMap Prod.snd ++ ⟨.take source (.data tag), .gone⟩ :: later := by
  obtain ⟨past, _, rfl, hpast, hlater⟩ := List.map_eq_append_iff.mp (h.told.symm.trans missed)
  obtain ⟨failed, rest, rfl, hfailed, -⟩ := List.map_eq_cons_iff.mp hlater
  have shows := h.shown failed (List.mem_append_right _ List.mem_cons_self)
  refine ⟨past, rest.flatMap Prod.snd ++ current, hpast,
    fun entry hm => h.shown entry (List.mem_append_left _ hm), ?_⟩
  rw [h.made, List.flatMap_append, List.flatMap_cons, shows.missing _ _ _ hfailed loss]
  simp

end Ledger

section Shown

variable (shown : ∀ entry ∈ entries, entry.1.Shows entry.2)
include shown

theorem payloads_shown (peer : Rank) (tag : UInt32) :
    payloads (.data tag) ((entries.flatMap Prod.snd).filterMap (Step.takenFrom? peer)) =
      (entries.map Prod.fst).filterMap (Reply.received? peer tag) := by
  induction entries with
  | nil => rfl
  | cons entry rest ih =>
    obtain ⟨first, others⟩ := List.forall_mem_cons.mp shown
    rw [List.flatMap_cons, List.filterMap_append, payloads_append, first.received, ih others]
    cases hr : Reply.received? peer tag entry.1 <;> simp [hr]

theorem hangUp_not_shown (staying : ∀ reply ∈ entries.map Prod.fst, reply.call ≠ .finalize) :
    ⟨.hangUp, ()⟩ ∉ entries.flatMap Prod.snd := by
  intro hm
  obtain ⟨entry, he, hung⟩ := List.mem_flatMap.mp hm
  exact staying _ (List.mem_map_of_mem he) ((shown entry he).closing hung)

end Shown

/-- Every exchange of a participant was made by a call, and is told by the answer of that call if
it has one. -/
theorem Execution.ledger {size : UInt32} {program : Rank → Program Action.interface α}
    {start : Network α} (begins : Bootstrapped size program start)
    (run : Execution start steps net) (who : Rank) :
    ∃ entries current, Ledger steps net who entries current := by
  induction run with
  | start =>
    have doing := begins.starts.activity who
    refine ⟨[], [], rfl, rfl, nofun, ?_⟩
    split at doing
    · exact (recites_running doing _).mpr rfl
    · rw [Recites, doing]
      trivial
  | @next steps net net' move seen earlier moves ih =>
    have fidelity := earlier.fidelity begins
    have hm := moved moves
    obtain ⟨entries, current, h⟩ := ih
    by_cases mover : move.who = who
    · exact h.next fidelity mover hm
    · exact ⟨entries, current, h.other mover (fidelity.frame hm (Ne.symm mover)).1⟩

end Network
end FaultDrill
