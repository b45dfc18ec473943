import FaultDrill.Proofs.Losses
set_option autoImplicit false

namespace FaultDrill.Network

variable {α : Type} {size : UInt32} {steps : List (Step α)} {net net' : Network α}
  {who peer : Rank} {link link' : Link}

/-- The peer is gone for good, and of one class nothing more can be taken. -/
structure Concluded (steps : List (Step α)) (net : Network α) (who peer : Rank) (link : Link)
    (wanted : Wanted) (got : List Frame) : Prop where
  settled : Settled steps net who peer link
  refused : ∀ frame ∈ link.pending, wanted.accepts frame = false
  got_eq : (taken steps who peer).filter wanted.accepts = got

namespace Concluded

variable {wanted : Wanted} {got : List Frame}

theorem sent_eq (h : Concluded steps net who peer link wanted got) :
    (sent steps peer who).filter wanted.accepts =
      got ++ (dropped steps who peer).filter wanted.accepts := by
  rw [← h.settled.total wanted, List.filter_append, List.filter_append,
    Wanted.filter_refused h.refused, h.got_eq, List.append_nil]

theorem next (h : Concluded steps net who peer link wanted got)
    (fidelity : Fidelity size steps net) {move : Move} {seen : List Event}
    (hm : net.Moved move net' seen (Step.mk net move net' seen).answered?) :
    ∃ link', Concluded (steps ++ [⟨net, move, net', seen⟩]) net' who peer link' wanted got := by
  obtain ⟨link', settled, wanes⟩ := h.settled.next fidelity hm
  have refused : ∀ frame ∈ link'.pending, wanted.accepts frame = false :=
    fun frame hf => h.refused frame (wanes.kept.mem hf)
  have together := wanes.together wanted
  rw [List.filter_append, List.filter_append, Wanted.filter_refused refused,
    Wanted.filter_refused h.refused, List.append_nil, List.append_nil] at together
  exact ⟨link', settled, refused, together.trans h.got_eq⟩

end Concluded

theorem Fidelity.refuses (h : Fidelity size steps net) {move : Move} {seen : List Event}
    {wanted : Wanted} (sound : move.IsSound)
    (hm : net.Moved move net' seen (some ⟨.take peer wanted, .gone⟩))
    (has : net.end? move.who peer = some link) (has' : net'.end? move.who peer = some link') :
    ∀ frame ∈ link'.pending, wanted.accepts frame = false := by
  generalize ha : (some ⟨.take peer wanted, .gone⟩ : Option Answered) = answered at hm
  cases hm with
  | leave | crash => cases ha
  | proceed proceeds =>
    cases proceeds with
    | start | act | finish | wait => cases ha
    | exchange _ comes =>
      cases ha
      rw [end_setActivity] at has'
      generalize hg : some Taken.gone = answer at comes
      cases h.exchanged comes with
      | takeNowhere hasNot =>
        rw [Move.who, hasNot] at has
        cases has
      | take _ _ takes _ moves =>
        obtain rfl := Option.some.inj (moves.end_own.symm.trans has')
        cases takes with
        | dead refused => exact refused
        | ended refused => exact refused
        | broken _ _ broke =>
          have none : _ = Option.none := sound
          rw [none] at broke
          cases broke
        | kept | arrived | waiting => cases hg

theorem Fidelity.stays (h : Fidelity size steps net) {move : Move} {seen : List Event}
    {answered : Answered} (hm : net.Moved move net' seen (some answered)) (result : Option α) :
    net'.activity? move.who ≠ some (.left result) := by
  generalize ha : some answered = given at hm
  cases hm with
  | leave | crash => cases ha
  | proceed proceeds =>
    cases proceeds with
    | start | act | finish | wait => cases ha
    | exchange doing comes =>
      have doing' := (congrFun (h.exchanged comes).alike.activity _).trans doing
      rw [Move.who, activity_setActivity_self doing']
      intro left
      cases left

theorem Attended.concludes {move : Move} {seen : List Event} {wanted : Wanted}
    (h : Attended (steps ++ [⟨net, move, net', seen⟩]) net' move.who peer link')
    (fidelity : Fidelity size steps net) (sound : move.IsSound)
    (hm : net.Moved move net' seen (Step.mk net move net' seen).answered?)
    (answered : (Step.mk net move net' seen).answered? = some ⟨.take peer wanted, .gone⟩)
    (has : net.end? move.who peer = some link)
    (staying : ⟨.hangUp, ()⟩ ∉ exchanges steps move.who) :
    Concluded (steps ++ [⟨net, move, net', seen⟩]) net' move.who peer link' wanted
      ((taken steps move.who peer).filter wanted.accepts) := by
  rw [answered] at hm
  refine ⟨?_, fidelity.refuses sound hm has h.has, ?_⟩
  · rcases h.settled ((isOpen_of_end h.has).symm.trans (fidelity.isOpen_gone hm)) with
      (hung | ⟨result, left⟩) | settled
    · rw [exchanges_next, if_pos rfl, answered] at hung
      simp [staying] at hung
    · exact absurd left (fidelity.stays hm result)
    · exact settled
  · rw [taken_take answered, Taken.frames, ite_self, List.append_nil]

/-- A participant that waits for a frame in vain, before it has parted, has taken everything of
that class that the peer had sent, except for what its own writes gave up. -/
theorem Execution.concluded {program : Rank → Program Action.interface α} {start : Network α}
    (begins : Bootstrapped size program start) (run : Execution start steps net)
    (sound : ∀ step ∈ steps, step.move.IsSound) (hw : who ∈ Rank.everybody size)
    (hp : peer ∈ who.peers size) {wanted : Wanted} {earlier later : List Answered}
    (split : exchanges steps who = earlier ++ ⟨.take peer wanted, .gone⟩ :: later)
    (staying : ⟨.hangUp, ()⟩ ∉ earlier) :
    ∃ link, Concluded steps net who peer link wanted
      ((earlier.filterMap (Step.takenFrom? peer)).filter wanted.accepts) := by
  induction run generalizing later with
  | start => exact absurd split (by simp [exchanges])
  | @next steps net net' move seen before moves ih =>
    have fidelity := before.fidelity begins
    have hm := moved moves
    have past : ∀ rest, exchanges steps who = earlier ++ ⟨.take peer wanted, .gone⟩ :: rest →
        ∃ link, Concluded (steps ++ [⟨net, move, net', seen⟩]) net' who peer link wanted
          ((earlier.filterMap (Step.takenFrom? peer)).filter wanted.accepts) := by
      intro rest hrest
      obtain ⟨link, concluded⟩ := ih (fun step hs => sound step (List.mem_append_left _ hs)) hrest
      exact concluded.next fidelity hm
    rw [exchanges_next] at split
    by_cases mover : move.who = who
    · subst mover
      cases answered : (Step.mk net move net' seen).answered? with
      | none =>
        rw [answered, Option.toList_none, ite_self, List.append_nil] at split
        exact past _ split
      | some other =>
        -- This exchange is the last one: it is the one that fails, or that one is past.
        rw [answered, if_pos rfl] at split
        rcases later.eq_nil_or_concat with rfl | ⟨rest, final, rfl⟩
        · obtain ⟨rfl, hlast⟩ := List.append_inj' split rfl
          obtain rfl := List.singleton_inj.mp hlast
          obtain ⟨link, has⟩ := fidelity.star.end_isSome hw hp
          obtain ⟨link', has'⟩ := ((before.next moves).fidelity begins).star.end_isSome hw hp
          have attended := (before.next moves).attended begins sound has'
          exact ⟨link', attended.concludes fidelity
            (sound _ (List.mem_append_right _ List.mem_cons_self)) hm answered has staying⟩
        · rw [List.concat_eq_append, ← List.cons_append, ← List.append_assoc] at split
          exact past rest (List.append_inj' split rfl).1
    · rw [if_neg mover, List.append_nil] at split
      exact past _ split

/-- No write was the first to find the peer gone. -/
def ReadFirst (made : List Answered) (peer : Rank) : Prop :=
  ∀ earlier frame later, made = earlier ++ ⟨.send peer frame, .gone⟩ :: later →
    ∃ wanted, ⟨.take peer wanted, .gone⟩ ∈ earlier

theorem ReadFirst.of_append {made more : List Answered} (h : ReadFirst (made ++ more) peer) :
    ReadFirst made peer := by
  intro earlier frame later hmade
  apply h earlier frame (later ++ more)
  rw [hmade]
  simp

theorem Execution.closed_of_gone {program : Rank → Program Action.interface α}
    {start : Network α} (begins : Bootstrapped size program start)
    (run : Execution start steps net) {wanted : Wanted}
    (missed : ⟨.take peer wanted, .gone⟩ ∈ exchanges steps who) :
    net.isOpen who peer = false := by
  induction run with
  | start => cases missed
  | @next steps net net' move seen earlier moves ih =>
    have fidelity := earlier.fidelity begins
    have hm := moved moves
    rw [exchanges_next] at missed
    rcases List.mem_append.mp missed with missed | missed
    · exact fidelity.isOpen_closed_next hm (ih missed)
    · by_cases mover : move.who = who
      · subst mover
        rw [if_pos rfl] at missed
        rw [Option.mem_toList.mp missed] at hm
        exact fidelity.isOpen_gone hm
      · rw [if_neg mover] at missed
        cases missed

/-- Once a read has found the peer gone, a write gives up nothing. -/
theorem Execution.dropped_eq_nil {program : Rank → Program Action.interface α}
    {start : Network α} (begins : Bootstrapped size program start)
    (run : Execution start steps net) (hw : who ∈ Rank.everybody size)
    (hp : peer ∈ who.peers size) (first : ReadFirst (exchanges steps who) peer) :
    dropped steps who peer = [] := by
  induction run with
  | start => rfl
  | @next steps net net' move seen earlier moves ih =>
    rw [exchanges_next] at first
    rw [dropped_next, ih first.of_append, List.nil_append]
    by_cases mover : move.who = who
    · rw [if_pos mover]
      rcases (Step.mk net move net' seen).dropped_eq peer with hd | ⟨frame, answered⟩
      · exact hd
      · rw [if_pos mover, answered] at first
        obtain ⟨wanted, missed⟩ := first (exchanges steps who) frame [] rfl
        obtain ⟨link, has⟩ := (earlier.fidelity begins).star.end_isSome hw hp
        have shut := (isOpen_of_end has).symm.trans (earlier.closed_of_gone begins missed)
        exact Step.dropped_closed (mover ▸ has) shut
    · exact if_neg mover

/-- When a participant that has closed nothing itself waits for a message in vain, because the one
it should come from is gone, it has received everything that was sent to it with that tag, in the
same order, except for what was given up where one of its own writes was the first to find the
other one gone. If a read was, nothing is missing. -/
theorem departing_messages {program : Rank → Program Action.interface α} {start : Network α}
    (begins : Bootstrapped size program start) (run : Execution start steps net)
    (sound : ∀ step ∈ steps, step.move.IsSound) {a b : Rank} (ha : a ∈ Rank.everybody size)
    (hb : b ∈ a.peers size) {tag : UInt32} {before after : List Reply} {error : GroupError}
    (missed : replies steps b = before ++ ⟨.recv a tag, .error error⟩ :: after)
    (loss : error.IsLoss a) (staying : ∀ reply ∈ before, reply.call ≠ .finalize) :
    payloads (.data tag) (sent steps a b) = before.filterMap (Reply.received? a tag) ++
        payloads (.data tag) (dropped steps b a) ∧
      (ReadFirst (exchanges steps b) a →
        payloads (.data tag) (sent steps a b) = before.filterMap (Reply.received? a tag)) := by
  obtain ⟨hb', ha', -⟩ := Rank.peers_symm ha hb
  obtain ⟨entries, current, ledger⟩ := run.ledger begins b
  obtain ⟨past, later, rfl, shown, made⟩ := ledger.missing missed loss
  obtain ⟨link, concluded⟩ :=
    run.concluded begins sound hb' ha' made (hangUp_not_shown shown staying)
  have whole : payloads (.data tag) (sent steps a b) =
      (past.map Prod.fst).filterMap (Reply.received? a tag) ++
        payloads (.data tag) (dropped steps b a) := by
    rw [← payloads_shown shown, payloads, concluded.sent_eq, List.filterMap_append]
    rfl
  refine ⟨whole, fun first => ?_⟩
  rw [whole, run.dropped_eq_nil begins hb' ha' first]
  exact List.append_nil _

deriving instance DecidableEq for Except

instance : (call : Call) → DecidableEq call.Answer
  | .barrier | .send .. | .finalize => inferInstanceAs (DecidableEq (Except GroupError Unit))
  | .broadcast .. | .recv .. => inferInstanceAs (DecidableEq (Except GroupError (List UInt8)))
  | .departed => inferInstanceAs (DecidableEq (List Rank))

deriving instance DecidableEq for Reply

/-- The member sends two messages and leaves. The coordinator receives one, sends something itself,
and waits for the other. -/
def crossTalk : Network Unit :=
  formed 2 fun rank =>
    if rank.isCoordinator then
      .ask (.call (.recv ⟨1⟩ 5)) fun _ => .ask (.call (.send ⟨1⟩ 9 [])) fun _ =>
        .ask (.call (.recv ⟨1⟩ 5)) fun _ => .done ()
    else
      .ask (.call (.send .coordinator 5 [1])) fun _ =>
        .ask (.call (.send .coordinator 5 [2])) fun _ => .done ()

def crossing : List Move :=
  let go (who : Rank) : Move := .proceed who ⟨true, .survived, none⟩
  List.replicate 6 (go ⟨1⟩) ++ .leave ⟨1⟩ :: List.replicate 9 (go .coordinator)

def crossed : List Reply :=
  [⟨.recv ⟨1⟩ 5, .ok [1]⟩, ⟨.send ⟨1⟩ 9 [], .error (.peerDeparted ⟨1⟩)⟩,
    ⟨.recv ⟨1⟩ 5, .error (.peerDeparted ⟨1⟩)⟩]

/-- What was sent is the message that was received and what the write gave up. -/
theorem departing_messages_crossing : ∃ steps net, Execution crossTalk steps net ∧
    replies steps .coordinator = crossed ∧
    payloads (.data 5) (sent steps ⟨1⟩ .coordinator) =
      [1] :: payloads (.data 5) (dropped steps .coordinator ⟨1⟩) := by
  have crosses : ((crossTalk.execute? crossing).any fun (steps, _) =>
      decide ((∀ step ∈ steps, step.move.IsSound) ∧ replies steps .coordinator = crossed)) =
        true := by
    decide +kernel
  obtain ⟨⟨steps, net⟩, he, ht⟩ := (Option.any_eq_true _ _).mp crosses
  obtain ⟨sound, told⟩ := of_decide_eq_true ht
  have run := (execution_of_execute he).1
  have missed : replies steps .coordinator = crossed.take 2 ++
      ⟨.recv ⟨1⟩ 5, .error (.peerDeparted ⟨1⟩)⟩ :: [] := told
  exact ⟨steps, net, run, told,
    (departing_messages .formed run sound (by decide) (by decide) missed (by decide)
      (by decide)).1⟩

/-- A message that was completely sent before its sender left is never received: the second of the
two, although the first one was received after both had arrived. -/
theorem crossing_message_is_lost : ∃ steps net, Execution crossTalk steps net ∧
    (∀ step ∈ steps, step.move.IsSound) ∧
    payloads (.data 5) (sent steps ⟨1⟩ .coordinator) = [[1], [2]] ∧
    net.isOpen ⟨1⟩ .coordinator = false ∧ replies steps .coordinator = crossed := by
  have crosses : ((crossTalk.execute? crossing).any fun (steps, net) =>
      decide ((∀ step ∈ steps, step.move.IsSound) ∧
        payloads (.data 5) (sent steps ⟨1⟩ .coordinator) = [[1], [2]] ∧
        net.isOpen ⟨1⟩ .coordinator = false ∧ replies steps .coordinator = crossed)) = true := by
    decide +kernel
  obtain ⟨⟨steps, net⟩, he, ht⟩ := (Option.any_eq_true _ _).mp crosses
  exact ⟨steps, net, (execution_of_execute he).1, of_decide_eq_true ht⟩

end FaultDrill.Network
