import FaultDrill.Proofs.Accounts
set_option autoImplicit false

namespace FaultDrill

def Frame.payload? : Frame → Option (List UInt8)
  | .data _ payload | .broadcast payload => some payload
  | .join _ | .barrierEnter | .barrierRelease => none

/-- What the frames of a class carry, in order. -/
def payloads (wanted : Wanted) (frames : List Frame) : List (List UInt8) :=
  (frames.filter wanted.accepts).filterMap Frame.payload?

theorem payloads_append (wanted : Wanted) (frames others : List Frame) :
    payloads wanted (frames ++ others) = payloads wanted frames ++ payloads wanted others := by
  rw [payloads, List.filter_append, List.filterMap_append]
  rfl

theorem payloads_carries (wanted : Wanted) (frames : List Frame) :
    payloads wanted (frames.filter Frame.carries) = payloads wanted frames := by
  induction frames with
  | nil => rfl
  | cons frame rest ih =>
    have hone : payloads wanted ([frame].filter Frame.carries) = payloads wanted [frame] := by
      cases frame with
      | data | broadcast => rfl
      | join | barrierEnter | barrierRelease => cases wanted <;> rfl
    rw [← List.singleton_append, List.filter_append, payloads_append, payloads_append, hone, ih]

theorem payloads_flatMap (wanted : Wanted) (f : Reply → List Frame)
    (g : Reply → Option (List UInt8)) (h : ∀ reply, payloads wanted (f reply) = (g reply).toList)
    (replies : List Reply) : payloads wanted (replies.flatMap f) = replies.filterMap g := by
  induction replies with
  | nil => rfl
  | cons reply rest ih =>
    rw [List.flatMap_cons, payloads_append, h, ih]
    cases hg : g reply <;> simp [hg]

theorem payloads_broadcasts (wanted : Wanted) (given : List (List UInt8)) :
    payloads wanted (given.map .broadcast) = if wanted = .broadcast then given else [] := by
  induction given with
  | nil => exact (ite_self []).symm
  | cons payload rest ih =>
    rw [List.map_cons, ← List.singleton_append, payloads_append, ih]
    cases wanted <;> rfl

namespace Reply

def sent? (target : Rank) (tag : UInt32) : Reply → Option (List UInt8)
  | ⟨.send other found payload, .ok ()⟩ =>
    if other = target ∧ found = tag then some payload else none
  | _ => none

def received? (source : Rank) (tag : UInt32) : Reply → Option (List UInt8)
  | ⟨.recv other found, .ok payload⟩ =>
    if other = source ∧ found = tag then some payload else none
  | _ => none

def broadcast? : Reply → Option (List UInt8)
  | ⟨.broadcast .., .ok payload⟩ => some payload
  | _ => none

theorem payloads_posted_data (peer : Rank) (tag : UInt32) (reply : Reply) :
    payloads (.data tag) (reply.posted peer) = (reply.sent? peer tag).toList := by
  obtain ⟨call, answer⟩ := reply
  cases call with
  | send target found payload =>
    cases answer with
    | error => rfl
    | ok =>
      by_cases ht : target = peer <;> by_cases hf : found = tag <;>
        simp [posted, sent?, payloads, ht, hf, Wanted.accepts, Frame.payload?]
  | broadcast root payload =>
    cases answer with
    | error => rfl
    | ok =>
      simp only [posted]
      split <;> rfl
  | barrier | recv | departed | finalize => rfl

theorem payloads_fetched_data (peer : Rank) (tag : UInt32) (reply : Reply) :
    payloads (.data tag) (reply.fetched peer) = (reply.received? peer tag).toList := by
  obtain ⟨call, answer⟩ := reply
  cases call with
  | recv source found =>
    cases answer with
    | error => rfl
    | ok payload =>
      by_cases hs : source = peer <;> by_cases hf : found = tag <;>
        simp [fetched, received?, payloads, hs, hf, Wanted.accepts, Frame.payload?]
  | broadcast root payload =>
    cases answer with
    | error => rfl
    | ok =>
      simp only [fetched]
      split <;> rfl
  | barrier | send | departed | finalize => rfl

theorem payloads_posted_broadcast {peer : Rank} (member : peer.isCoordinator = false)
    (reply : Reply) : payloads .broadcast (reply.posted peer) = reply.broadcast?.toList := by
  obtain ⟨call, answer⟩ := reply
  cases call with
  | send target found payload =>
    cases answer with
    | error => rfl
    | ok =>
      simp only [posted]
      split <;> rfl
  | broadcast root payload =>
    cases answer with
    | error => rfl
    | ok =>
      simp only [posted, member]
      rfl
  | barrier | recv | departed | finalize => rfl

theorem payloads_fetched_broadcast (reply : Reply) :
    payloads .broadcast (reply.fetched .coordinator) = reply.broadcast?.toList := by
  obtain ⟨call, answer⟩ := reply
  cases call with
  | recv source found =>
    cases answer with
    | error => rfl
    | ok =>
      simp only [fetched]
      split <;> rfl
  | broadcast root payload => cases answer <;> rfl
  | barrier | send | departed | finalize => rfl

end Reply

namespace Network

variable {α : Type}

namespace Balanced

variable {steps : List (Step α)} {net : Network α} {who peer : Rank}

theorem sent_data (h : Balanced steps net who peer) (tag : UInt32) :
    payloads (.data tag) (sent steps who peer) =
      (answers steps net who).filterMap (Reply.sent? peer tag) := by
  obtain ⟨underway, -, hsent⟩ := h.posted
  rw [← payloads_carries, hsent, payloads_append, payloads_broadcasts, if_neg nofun,
    List.append_nil, payloads_flatMap _ _ _ (Reply.payloads_posted_data peer tag)]

theorem taken_data (h : Balanced steps net who peer) (tag : UInt32) :
    payloads (.data tag) (taken steps who peer) =
      (answers steps net who).filterMap (Reply.received? peer tag) := by
  rw [← payloads_carries, h.fetched,
    payloads_flatMap _ _ _ (Reply.payloads_fetched_data peer tag)]

theorem sent_broadcasts (h : Balanced steps net who peer) (member : peer.isCoordinator = false) :
    ∃ underway, underway <+: net.broadcasting who ∧
      payloads .broadcast (sent steps who peer) =
        (answers steps net who).filterMap Reply.broadcast? ++ underway := by
  obtain ⟨underway, hunderway, hsent⟩ := h.posted
  refine ⟨underway, hunderway, ?_⟩
  rw [← payloads_carries, hsent, payloads_append, payloads_broadcasts, if_pos rfl,
    payloads_flatMap _ _ _ (Reply.payloads_posted_broadcast member)]

theorem taken_broadcasts (h : Balanced steps net who .coordinator) :
    payloads .broadcast (taken steps who .coordinator) =
      (answers steps net who).filterMap Reply.broadcast? := by
  rw [← payloads_carries, h.fetched, payloads_flatMap _ _ _ Reply.payloads_fetched_broadcast]

end Balanced

theorem Fidelity.payloads_eq {size : UInt32} {steps : List (Step α)} {net : Network α}
    (h : Fidelity size steps net) {a b : Rank} (opened : net.isOpen a b = true)
    (opened' : net.isOpen b a = true) :
    ∃ link arrived, net.end? b a = some link ∧ link.inbox = ⟨arrived.map .frame, []⟩ ∧
      ∀ wanted, payloads wanted (sent steps a b) = payloads wanted (taken steps b a) ++
        payloads wanted link.pending ++ payloads wanted arrived := by
  obtain ⟨link, hl, live⟩ := end_of_isOpen opened'
  obtain ⟨arrived, hf⟩ := h.faithful b a link hl
  have hinbox : link.inbox = ⟨arrived.map .frame, []⟩ :=
    congr (congrArg Inbox.mk hf.holds) (h.whole b a link hl live opened)
  refine ⟨link, arrived, hl, hinbox, fun wanted => ?_⟩
  rw [← payloads_append, ← payloads_append, payloads, payloads, hf.complete live wanted]

/-- Over a link whose two ends are open, while no connection breaks down, what is received with a
tag is what was sent with it, in the same order; so it is with the coordinator's broadcasts. What
was sent and has not been received is kept at the other end, or has not been read there. The
payload of a message is never taken for that of a broadcast, nor the other way round. -/
theorem messages_are_delivered {size : UInt32} {program : Rank → Program Action.interface α}
    {steps : List (Step α)} {start net : Network α} (begins : Bootstrapped size program start)
    (run : Execution start steps net) (sound : ∀ step ∈ steps, step.move.IsSound) {a b : Rank}
    (ha : a ∈ Rank.everybody size) (hb : b ∈ a.peers size) (opened : net.isOpen a b = true)
    (opened' : net.isOpen b a = true) :
    ∃ link arrived, net.end? b a = some link ∧ link.inbox = ⟨arrived.map .frame, []⟩ ∧
      (∀ tag, (answers steps net a).filterMap (Reply.sent? b tag) =
        (answers steps net b).filterMap (Reply.received? a tag) ++
          payloads (.data tag) link.pending ++ payloads (.data tag) arrived) ∧
      (∀ (tag : UInt32) (i : Nat) payload,
        ((answers steps net b).filterMap (Reply.received? a tag))[i]? = some payload →
          ((answers steps net a).filterMap (Reply.sent? b tag))[i]? = some payload) ∧
      (a = .coordinator → ∃ underway, underway <+: net.broadcasting a ∧
        (answers steps net a).filterMap Reply.broadcast? ++ underway =
          (answers steps net b).filterMap Reply.broadcast? ++
            payloads .broadcast link.pending ++ payloads .broadcast arrived) ∧
      (a = .coordinator → ∀ (i : Nat) payload,
        ((answers steps net b).filterMap Reply.broadcast?)[i]? = some payload →
          ((answers steps net a).filterMap Reply.broadcast? ++ net.broadcasting a)[i]? =
            some payload) ∧
      (taken steps b a).filter Frame.carries =
        (answers steps net b).flatMap (Reply.fetched a) := by
  obtain ⟨hb', ha', -⟩ := Rank.peers_symm ha hb
  obtain ⟨link, arrived, hl, hinbox, hclass⟩ :=
    (run.fidelity begins).payloads_eq opened opened'
  obtain ⟨_, own⟩ := run.accounts begins sound ha hb opened
  obtain ⟨_, other⟩ := run.accounts begins sound hb' ha' opened'
  have hdata : ∀ tag, (answers steps net a).filterMap (Reply.sent? b tag) =
      (answers steps net b).filterMap (Reply.received? a tag) ++
        payloads (.data tag) link.pending ++ payloads (.data tag) arrived := by
    intro tag
    rw [← own.balanced.sent_data, ← other.balanced.taken_data, hclass]
  have hbroadcast : a = .coordinator → ∃ underway, underway <+: net.broadcasting a ∧
      (answers steps net a).filterMap Reply.broadcast? ++ underway =
        (answers steps net b).filterMap Reply.broadcast? ++
          payloads .broadcast link.pending ++ payloads .broadcast arrived := by
    rintro rfl
    have member : b.isCoordinator = false := by
      rw [Rank.isCoordinator_peer hb]
      rfl
    obtain ⟨underway, hunderway, hsent⟩ := own.balanced.sent_broadcasts member
    exact ⟨underway, hunderway, by rw [← hsent, ← other.balanced.taken_broadcasts, hclass]⟩
  refine ⟨link, arrived, hl, hinbox, hdata, fun tag i payload hi => ?_, hbroadcast,
    fun hcoordinator i payload hi => ?_, other.balanced.fetched⟩
  · rw [hdata tag, List.append_assoc, List.getElem?_append_left (List.getElem?_eq_some_iff.mp hi).1]
    exact hi
  · obtain ⟨_, ⟨later, hlater⟩, heq⟩ := hbroadcast hcoordinator
    rw [← hlater, ← List.append_assoc, heq, List.append_assoc, List.append_assoc,
      List.getElem?_append_left (List.getElem?_eq_some_iff.mp hi).1]
    exact hi

/-- The coordinator broadcasts and sends twice, and the member receives what was sent last first. -/
def twoTalk : Network Unit :=
  formed 2 fun rank =>
    if rank.isCoordinator then
      .ask (.call (.broadcast .coordinator (some [9]))) fun _ =>
        .ask (.call (.send ⟨1⟩ 5 [1])) fun _ =>
          .ask (.call (.send ⟨1⟩ 6 [2])) fun _ => .ask (.call .barrier) fun _ => .done ()
    else
      .ask (.call (.recv .coordinator 6)) fun _ =>
        .ask (.call (.broadcast .coordinator none)) fun _ => .done ()

theorem messages_are_delivered_two : ∃ steps net, Execution twoTalk steps net ∧
    ∃ link arrived, net.end? ⟨1⟩ .coordinator = some link ∧
      link.inbox = ⟨arrived.map .frame, []⟩ ∧
      (answers steps net .coordinator).filterMap (Reply.sent? ⟨1⟩ 5) =
        (answers steps net ⟨1⟩).filterMap (Reply.received? .coordinator 5) ++
          payloads (.data 5) link.pending ++ payloads (.data 5) arrived ∧
      ((answers steps net .coordinator).filterMap (Reply.sent? ⟨1⟩ 6))[0]? = some [2] ∧
      ((answers steps net .coordinator).filterMap Reply.broadcast? ++
        net.broadcasting .coordinator)[0]? = some [9] ∧
      (taken steps ⟨1⟩ .coordinator).filter Frame.carries =
        (answers steps net ⟨1⟩).flatMap (Reply.fetched .coordinator) := by
  let go (who : Rank) : Move := .proceed who ⟨true, .survived, none⟩
  let moves := List.replicate 9 (go ⟨0⟩) ++ List.replicate 6 (go ⟨1⟩)
  have talks : ((twoTalk.execute? moves).any fun (steps, net) =>
      decide ((∀ step ∈ steps, step.move.IsSound) ∧ net.isOpen .coordinator ⟨1⟩ = true ∧
        net.isOpen ⟨1⟩ .coordinator = true ∧
        ((answers steps net ⟨1⟩).filterMap (Reply.received? .coordinator 6))[0]? = some [2] ∧
        ((answers steps net ⟨1⟩).filterMap Reply.broadcast?)[0]? = some [9])) = true := by
    decide +kernel
  obtain ⟨⟨steps, net⟩, he, ht⟩ := (Option.any_eq_true _ _).mp talks
  have run := (execution_of_execute he).1
  obtain ⟨sound, opened, opened', hreceived, hgiven⟩ := of_decide_eq_true ht
  obtain ⟨link, arrived, hl, hinbox, hdata, hith, -, hbroadcast, htaken⟩ :=
    messages_are_delivered .formed run sound (by decide) (by decide) opened opened'
  exact ⟨steps, net, run, link, arrived, hl, hinbox, hdata 5, hith 6 0 [2] hreceived,
    hbroadcast rfl 0 [9] hgiven, htaken⟩

end Network
end FaultDrill
