import FaultDrill.Proofs.Parting
set_option autoImplicit false

/-!
# Refused calls

A call for which there is no way is refused, as is a broadcast from anybody but the coordinator or
of nothing, and a frame that is too large. A refused call leaves every link as it is, and all that
comes after it comes as if it had not been made.
-/
namespace FaultDrill
open Wire

theorem Rank.mem_members_of_lt {rank : Rank} {size : UInt32}
    (other : rank.isCoordinator = false) (below : rank.index < size) : rank ∈ members size := by
  have ne : rank.index ≠ 0 := fun he => by simp [isCoordinator, coordinator, ← he] at other
  have positive := UInt32.lt_iff_toNat_lt.mp (UInt32.pos_iff_ne_zero.mpr ne)
  exact mem_members.mpr ⟨positive, UInt32.lt_iff_toNat_lt.mp below⟩

namespace Communicator

/-- A participant of a group that has come together, whatever has become of its links. -/
inductive Formed : Communicator → Prop where
  | alone : Formed alone
  | coordinator {size : UInt32} {links : List Link}
      (peers : links.map Link.peer = Rank.members size) : Formed ⟨.coordinator, size, .hub links⟩
  | member {rank : Rank} {size : UInt32} {link : Link} (among : rank ∈ Rank.members size)
      (peer : link.peer = .coordinator) : Formed ⟨rank, size, .spoke link⟩

/-- Messages travel between the coordinator and a member, and nowhere else. -/
def Routes (c : Communicator) (other : Rank) : Prop :=
  c.rank ≠ .coordinator ∧ other = .coordinator ∨
    c.rank = .coordinator ∧ other ∈ Rank.members c.size

namespace Formed

variable {c : Communicator}

theorem nodup (h : c.Formed) : c.topology.peers.Nodup := by
  cases h with
  | alone => exact List.nodup_nil
  | @coordinator size links peers =>
    rw [show (Topology.hub links).peers = Rank.members size from peers]
    exact Rank.nodup_members size
  | member => exact List.pairwise_singleton _ _

theorem setLink (h : c.Formed) (link : Link) : (c.setLink link).Formed := by
  cases h with
  | alone => exact .alone
  | @coordinator size links peers =>
    exact .coordinator ((Topology.peers_setLink (.hub links) link).trans peers)
  | member among peer => exact .member among ((Topology.setLink_peer link _).trans peer)

theorem hangUp (h : c.Formed) : c.hangUp.Formed := by
  cases h with
  | alone => exact .alone
  | @coordinator size links peers =>
    exact .coordinator (((Topology.hub links).peers_mapLinks Link.close fun _ => rfl).trans peers)
  | member among peer => exact .member among peer

theorem link_iff (h : c.Formed) {other : Rank} :
    (c.topology.link? other).isSome ↔ c.Routes other := by
  rw [Topology.link_isSome]
  cases h with
  | alone => simp [Routes, Topology.peers, Topology.links, Communicator.alone, Rank.members,
      Rank.interval]
  | @coordinator size links peers =>
    rw [show (Topology.hub links).peers = Rank.members size from peers]
    simp [Routes]
  | member among peer =>
    simp [Routes, Topology.peers, Topology.links, peer, Rank.member_ne among]

theorem route_eq (h : c.Formed) (other : Rank) :
    (c.Routes other ∧ ∃ lost, c.route other = .ok lost ∧
      ∀ origin target, lost ≠ .unroutable origin target) ∨
    ¬c.Routes other ∧ c.route other = .error (.unroutable c.rank other) := by
  have linked : (c.topology.link? other).isSome ↔ c.Routes other := h.link_iff
  by_cases routes : c.Routes other
  · refine .inl ⟨routes, ?_⟩
    have there := linked.mpr routes
    cases h with
    | alone | coordinator => exact ⟨.peerDeparted other, if_pos there, nofun⟩
    | @member rank size link among peer =>
      obtain ⟨-, rfl⟩ := routes.resolve_right fun hub => Rank.member_ne among hub.1
      exact ⟨.coordinatorLost, rfl, nofun⟩
  · refine .inr ⟨routes, ?_⟩
    have absent : ¬(c.topology.link? other).isSome := fun there => routes (linked.mp there)
    cases h with
    | alone => rfl
    | coordinator => exact if_neg absent
    | @member rank size link among peer =>
      refine if_neg fun hub => routes (.inl ⟨Rank.member_ne among, ?_⟩)
      exact Rank.isCoordinator_iff.mp hub

end Formed

theorem formed_member {rank : Rank} {size : UInt32} (among : rank ∈ Rank.members size) :
    (member rank size).Formed := .member among rfl

theorem formed_coordinator (size : UInt32) : (coordinator size).Formed := by
  refine .coordinator ?_
  rw [List.map_map]
  exact (Rank.members size).map_id'

end Communicator

theorem Bootstrap.connect_formed {host : Net.Host} {placement : Placement} {joined : Bool}
    {c : Communicator} (h : (connect host placement joined).result = .ok c) : c.Formed := by
  unfold connect at h
  split at h
  · cases h
    exact .alone
  · split at h
    · unfold enterAsCoordinator at h
      split at h
      · cases h
      · split at h
        · cases h
          exact Communicator.formed_coordinator placement.size
        · obtain ⟨links, rfl, peers, -⟩ := accepted (Prod.ext h rfl)
          exact .coordinator peers
    · unfold enterAsMember join at h
      dsimp only at h
      split at h
      · cases h
      · rename_i outside
        split at h
        · cases h
          simp only [Bool.or_eq_true, decide_eq_true_eq, not_or, Bool.not_eq_true] at outside
          exact Communicator.formed_member
            (Rank.mem_members_of_lt outside.1 (UInt32.not_le.mp outside.2))
        · cases h

/-- Whoever waits for a frame gets one that it accepts. -/
def Exchange.Honest : (exchange : Exchange) → exchange.Answer → Prop
  | .take _ wanted, .frame frame => wanted.accepts frame = true
  | _, _ => True

def honesty : Contract Exchange.interface Unit :=
  ⟨fun _ _ => True, fun _ (exchange : Exchange) answer _ => exchange.Honest answer⟩

def Conduct.Gives {α : Type} (post : α → Prop) (p : Conduct α) : Prop :=
  p.Keeps honesty (fun _ => post) ()

theorem Link.readOn_accepted_only {accept : Frame → Bool} {ended : Bool} {link own : Link}
    {arrivals : List Arrival} {frame : Frame}
    (h : link.readOn accept ended arrivals = (some (.frame frame), own)) :
    accept frame = true := by
  induction arrivals generalizing link with
  | nil => cases ended <;> cases h
  | cons arrival rest ih =>
    cases arrival with
    | fault error => cases h
    | frame first =>
      unfold readOn at h
      split at h
      · rename_i accepted
        cases h
        exact accepted
      · exact ih h

theorem Link.take_accepted {accept : Frame → Bool} {ended : Bool} {breakdown : Option FaultKind}
    {link own : Link} {frame : Frame}
    (h : link.take accept ended breakdown = (some (.frame frame), own)) : accept frame = true := by
  cases kept : removeFirst? accept link.pending with
  | some result =>
    obtain ⟨before, after, -, -, accepted, -⟩ := removeFirst_eq_some kept
    rw [take_kept kept] at h
    cases h
    exact accepted
  | none =>
    cases live : link.live with
    | false =>
      rw [take_dead kept live] at h
      cases h
    | true =>
      cases breakdown with
      | none =>
        rw [take_reads kept live] at h
        exact readOn_accepted_only h
      | some kind =>
        rw [take_breaks kept live] at h
        split at h <;> cases h

namespace Communicator

variable {c : Communicator} {peer : Rank} {lost : GroupError}

theorem deliver_gives {frame : Frame} {post : Except GroupError Unit → Prop} (done : post (.ok ()))
    (fails : ∀ error, post (.error (.component error))) (gone : post (.error lost)) :
    Conduct.Gives post (deliver peer frame lost) := by
  rw [Desk.deliver_eq]
  refine ⟨trivial, fun sent _ _ => ?_⟩
  cases sent with
  | delivered => exact done
  | gone => exact gone
  | failed error => exact fails error

theorem awaitPayload_gives {wanted : Wanted} {post : Except GroupError (List UInt8) → Prop}
    (came : ∀ frame, wanted.accepts frame = true → post (payloadOf frame))
    (fails : ∀ error, post (.error (.component error))) (gone : post (.error lost)) :
    Conduct.Gives post (awaitPayload peer wanted lost) := by
  rw [Desk.awaitPayload_eq]
  refine ⟨trivial, fun taken _ honest => ?_⟩
  cases taken with
  | frame frame => exact came frame honest
  | gone => exact gone
  | failed error => exact fails error

theorem sendAll_gives {me : Rank} {frame : Frame} {occasion : String} {peers : List Rank}
    {post : Except GroupError Unit → Prop} (done : post (.ok ()))
    (fails : ∀ error, post (.error (.component error))) :
    Conduct.Gives post (sendAll me frame occasion peers) := by
  induction peers with
  | nil => exact done
  | cons peer rest ih =>
    refine ⟨trivial, fun sent _ _ => ?_⟩
    cases sent with
    | delivered => exact ih
    | gone => exact ⟨trivial, fun _ _ _ => ih⟩
    | failed error => exact fails error

theorem payloadOf_accepted {wanted : Wanted} {frame : Frame}
    (carries : wanted = .broadcast ∨ ∃ tag, wanted = .data tag)
    (accepted : wanted.accepts frame = true) : ∃ payload, payloadOf frame = .ok payload := by
  cases frame with
  | data tag payload | broadcast payload => exact ⟨payload, rfl⟩
  | join | barrierEnter | barrierRelease =>
    rcases carries with rfl | ⟨tag, rfl⟩ <;> cases accepted

section Calls

variable (formed : c.Formed)
include formed

theorem send_gives {target : Rank} (routes : c.Routes target) (tag : UInt32)
    (payload : List UInt8) : Conduct.Gives
      (fun answer => ∀ origin goal, answer ≠ .error (.unroutable origin goal))
      (c.send target tag payload) := by
  obtain ⟨-, lost, route, other⟩ := (formed.route_eq target).resolve_right fun no => no.1 routes
  rw [send, route]
  exact deliver_gives (fun _ _ he => by cases he) (fun _ _ _ he => by cases he)
    fun origin goal he => other origin goal (Except.error.inj he)

theorem recv_gives {source : Rank} (routes : c.Routes source) (tag : UInt32) : Conduct.Gives
      (fun answer => ∀ origin goal, answer ≠ .error (.unroutable origin goal))
      (c.recv source tag) := by
  obtain ⟨-, lost, route, other⟩ := (formed.route_eq source).resolve_right fun no => no.1 routes
  rw [recv, route]
  refine awaitPayload_gives (fun frame accepted => ?_) (fun _ _ _ he => by cases he)
    fun origin goal he => other origin goal (Except.error.inj he)
  obtain ⟨payload, hp⟩ := payloadOf_accepted (.inr ⟨tag, rfl⟩) accepted
  rw [hp]
  exact fun _ _ he => by cases he

theorem broadcast_gives {payload : Option (List UInt8)}
    (supplied : c.rank = .coordinator → payload ≠ none) : Conduct.Gives
      (fun answer => ∀ message, answer ≠ .error (.protocol message))
      (c.broadcast .coordinator payload) := by
  cases formed with
  | alone =>
    cases payload with
    | none => exact absurd rfl (supplied rfl)
    | some bytes => exact nofun
  | coordinator =>
    cases payload with
    | none => exact absurd rfl (supplied rfl)
    | some bytes =>
      have sends : ∀ me frame occasion peers, Conduct.Gives (fun answer : Except GroupError Unit =>
          ∀ message, answer ≠ .error (.protocol message)) (sendAll me frame occasion peers) :=
        fun _ _ _ _ => sendAll_gives nofun nofun
      refine Program.Keeps.bind ((sends _ _ _ _).mono fun _ sent outside => ?_)
      cases sent with
      | ok => exact nofun
      | error error => exact fun message he => outside message (congrArg _ (Except.error.inj he))
  | member =>
    refine awaitPayload_gives (fun frame accepted => ?_) nofun nofun
    obtain ⟨payload, hp⟩ := payloadOf_accepted (.inl rfl) accepted
    rw [hp]
    exact nofun

end Calls
end Communicator

namespace Desk

variable {first last : Desk} {before after : List Deed}

theorem Step.formed {deed : Deed} (step : Step first deed last) (h : first.communicator.Formed) :
    last.communicator.Formed := by
  cases step with
  | receive => exact h.setLink _
  | exchange meets | wait meets =>
    cases exchange_meets meets with
    | send | take => exact h.setLink _
    | hangUp => exact h.hangUp
    | note | sendNowhere | takeNowhere => exact h
  | start | answer => exact h

theorem Runs.append {middle : Desk} (run : Runs first before middle)
    (more : Runs middle after last) : Runs first (before ++ after) last := by
  induction run with
  | nil => exact more
  | cons step _ ih => exact .cons step (ih more)

theorem Runs.split (run : Runs first (before ++ after) last) :
    ∃ middle, Runs first before middle ∧ Runs middle after last := by
  induction before generalizing first with
  | nil => exact ⟨first, .nil first, run⟩
  | cons deed before ih =>
    cases run with
    | cons step rest =>
      obtain ⟨middle, run, more⟩ := ih rest
      exact ⟨middle, .cons step run, more⟩

def Deed.Within : Deed → Prop
  | received .. | exchanged .. => True
  | started _ | answered .. => False

def Deed.isArrival : Deed → Bool
  | received .. => true
  | started _ | exchanged .. | answered .. => false

/-- Something arrives, or there is an attempt to send that puts no byte on any link. -/
def Deed.Harmless : Deed → Prop
  | received .. => True
  | exchanged (.send ..) _ effect => effect.bytes = none
  | _ => False

def Answers (c : Communicator) (call : Call) (answer : call.Answer) : Prop :=
  ∃ deeds last, (∀ deed ∈ deeds, deed.Within) ∧
    Runs (idle c) (.started call :: deeds ++ [.answered call answer]) last

/-- The call is answered so whatever the surroundings are, and is as if it had not been made. -/
structure Refused (c : Communicator) (call : Call) (answer : call.Answer) : Prop where
  /-- On the way to its answer nothing is written, and nothing is taken from a link. -/
  harmless : ∀ deeds desk, Runs (idle c) (.started call :: deeds) desk →
    (∀ deed ∈ deeds, deed.Within) → ∀ deed ∈ deeds, deed.Harmless
  /-- It waits for nothing: under any conditions its own exchanges end it. -/
  ends : ∀ deeds desk, Runs (idle c) (.started call :: deeds) desk →
    (∀ deed ∈ deeds, deed.Within) → ∀ conditions, ∃ own,
      (∀ deed ∈ own, ∃ exchange effect, deed = .exchanged exchange conditions effect) ∧
      Runs desk (own ++ [.answered call answer]) (idle desk.communicator)
  /-- What comes after it, and what arrives meanwhile, could have come without it. -/
  forgotten : ∀ deeds given later last,
    Runs (idle c) (.started call :: deeds ++ .answered call given :: later) last →
    (∀ deed ∈ deeds, deed.Within) →
      given = answer ∧ Runs (idle c) (deeds.filter Deed.isArrival ++ later) last
  /-- Whatever comes without it can come after it. -/
  interposed : ∀ later last, Runs (idle c) later last → ∃ deeds,
    (∀ deed ∈ deeds, deed.Within) ∧
      Runs (idle c) (.started call :: deeds ++ .answered call answer :: later) last

/-- What is left of a call that is refused: its answer, or a frame that no link takes, with which
it fails. -/
inductive Declines {α : Type} (c : Communicator) (answer : α) : Conduct α → Prop where
  | done : Declines c answer (.done answer)
  | oversized {peer : Rank} {frame : Frame} {link : Link} {error : ComponentError}
      {next : Sent → Conduct α} (has : c.topology.link? peer = some link)
      (live : link.live = true) (large : frame.packet = .error error)
      (fails : next (.failed error) = .done answer) :
      Declines c answer (.ask (.send peer frame) next)

section Declining

variable {c : Communicator} {call : Call} {answer : call.Answer} {rest : Conduct call.Answer}

theorem oversized_send (formed : c.Formed) {peer : Rank} {frame : Frame} {link : Link}
    {error : ComponentError} (has : c.topology.link? peer = some link) (live : link.live = true)
    (large : frame.packet = .error error) (conditions : Communicator.Conditions) :
    c.exchange? conditions (.send peer frame) = some ⟨some (.failed error), c, none⟩ := by
  simp [Communicator.exchange?, has, Link.send, live, large, setLink_self formed.nodup has]

theorem Declines.receive (h : Declines c answer rest) {peer : Rank} {link : Link}
    (has : c.topology.link? peer = some link) (bytes : List UInt8) :
    Declines (c.setLink (link.receive bytes)) answer rest := by
  cases h with
  | done => exact .done
  | @oversized target frame old error next at_target live large fails =>
    have step : Step (idle c) (.received peer bytes) (idle (c.setLink (link.receive bytes))) :=
      .receive has bytes
    obtain ⟨own, has', changes⟩ := step.changes at_target
    have same : own.live = old.live := by
      cases changes with
      | kept => rfl
      | received => exact old.receive_live bytes
    exact .oversized has' (same.trans live) large fails

theorem Declines.step (h : Declines c answer rest) (formed : c.Formed) {deed : Deed} {next : Desk}
    (step : Step ⟨c, some ⟨call, rest⟩⟩ deed next) :
    (deed = .answered call answer ∧ next = idle c) ∨
    deed.Within ∧ deed.Harmless ∧ ∃ own left, next = ⟨own, some ⟨call, left⟩⟩ ∧ own.Formed ∧
      Declines own answer left ∧ Runs (idle c) ([deed].filter Deed.isArrival) (idle own) := by
  cases step with
  | receive has bytes =>
    exact .inr ⟨trivial, trivial, _, rest, rfl, formed.setLink _, h.receive has bytes,
      .cons (.receive has bytes) (.nil _)⟩
  | exchange meets answered =>
    cases h with
    | oversized has live large fails =>
      obtain rfl := Option.some.inj (meets.symm.trans (oversized_send formed has live large _))
      cases answered
      refine .inr ⟨trivial, rfl, c, _, rfl, formed, ?_, .nil _⟩
      rw [fails]
      exact .done
  | wait meets waiting =>
    cases h with
    | oversized has live large fails =>
      obtain rfl := Option.some.inj (meets.symm.trans (oversized_send formed has live large _))
      cases waiting
  | answer =>
    cases h
    exact .inl ⟨rfl, rfl⟩

theorem Declines.runs (h : Declines c answer rest) (formed : c.Formed) {deeds : List Deed}
    {desk : Desk} (run : Runs ⟨c, some ⟨call, rest⟩⟩ deeds desk)
    (within : ∀ deed ∈ deeds, deed.Within) :
    (∀ deed ∈ deeds, deed.Harmless) ∧ ∃ own left, desk = ⟨own, some ⟨call, left⟩⟩ ∧ own.Formed ∧
      Declines own answer left ∧ Runs (idle c) (deeds.filter Deed.isArrival) (idle own) := by
  induction deeds generalizing c rest with
  | nil =>
    cases run
    exact ⟨List.forall_mem_nil _, c, rest, rfl, formed, h, .nil _⟩
  | cons deed deeds ih =>
    cases run with
    | cons step more =>
      obtain ⟨here, later⟩ := List.forall_mem_cons.mp within
      rcases h.step formed step with ⟨rfl, -⟩ | ⟨-, harmless, own, left, rfl, formed', h', arrived⟩
      · cases here
      · obtain ⟨others, own', left', hd, formed', h', arrived'⟩ := ih h' formed' more later
        refine ⟨List.forall_mem_cons.mpr ⟨harmless, others⟩, own', left', hd, formed', h', ?_⟩
        rw [← List.singleton_append, List.filter_append]
        exact arrived.append arrived'

theorem Declines.ends (h : Declines c answer rest) (formed : c.Formed)
    (conditions : Communicator.Conditions) : ∃ own,
      (∀ deed ∈ own, ∃ exchange effect, deed = Deed.exchanged exchange conditions effect) ∧
      Runs ⟨c, some ⟨call, rest⟩⟩ (own ++ [.answered call answer]) (idle c) := by
  cases h with
  | done => exact ⟨[], List.forall_mem_nil _, .cons (.answer c call answer) (.nil _)⟩
  | oversized has live large fails =>
    have meets := oversized_send formed has live large conditions
    refine ⟨[.exchanged _ conditions _], ?_, .cons (.exchange meets rfl) ?_⟩
    · rintro _ hm
      exact ⟨_, _, List.mem_singleton.mp hm⟩
    · rw [fails]
      exact .cons (.answer c call answer) (.nil _)

/-- From its start a call is declined. -/
theorem Declines.refused (h : Declines c answer (c.conduct call)) (formed : c.Formed) :
    Refused c call answer := by
  have begin_at : ∀ {deeds desk}, Runs (idle c) (.started call :: deeds) desk →
      Runs ⟨c, some ⟨call, c.conduct call⟩⟩ deeds desk := by
    rintro deeds desk (_ | ⟨step, rest⟩)
    cases step
    exact rest
  refine ⟨fun deeds desk run within => (h.runs formed (begin_at run) within).1, ?_, ?_, ?_⟩
  · intro deeds desk run within conditions
    obtain ⟨-, own, left, rfl, formed', h', -⟩ := h.runs formed (begin_at run) within
    exact h'.ends formed' conditions
  · intro deeds given later last run within
    obtain ⟨middle, run, more⟩ := Runs.split (begin_at run)
    obtain ⟨-, own, left, rfl, formed', h', arrived⟩ := h.runs formed run within
    cases more with
    | cons step rest =>
      rcases h'.step formed' step with ⟨hd, rfl⟩ | ⟨never, -⟩
      · cases hd
        exact ⟨rfl, arrived.append rest⟩
      · cases never
  · intro later last run
    -- Nothing arrives while the call is ended, so what comes later begins where it began.
    obtain ⟨own, exchanges, ended⟩ := h.ends formed ⟨fun _ => false, fun _ => .accepted, none⟩
    refine ⟨own, fun deed hm => ?_, ?_⟩
    · obtain ⟨exchange, effect, rfl⟩ := exchanges deed hm
      trivial
    · have whole := (Runs.cons (.start c call) ended).append run
      rwa [List.cons_append, List.append_assoc] at whole

end Declining

theorem Meets.honest {c : Communicator} {conditions : Communicator.Conditions}
    {exchange : Exchange} {effect : Communicator.Effect exchange.Answer}
    (h : Meets c conditions exchange effect) {answer : exchange.Answer}
    (answered : effect.answer = some answer) : exchange.Honest answer := by
  cases h with
  | @take peer wanted link own taken has takes =>
    cases answer with
    | frame frame =>
      obtain rfl : taken = some (.frame frame) := answered
      exact Link.take_accepted takes
    | gone | failed => trivial
  | takeNowhere =>
    cases answered
    trivial
  | send | hangUp | note | sendNowhere => trivial

theorem gives_runs {c : Communicator} {call : Call} {post : call.Answer → Prop}
    {rest : Conduct call.Answer} (gives : Conduct.Gives post rest) {deeds : List Deed}
    {desk : Desk} (run : Runs ⟨c, some ⟨call, rest⟩⟩ deeds desk)
    (within : ∀ deed ∈ deeds, deed.Within) :
    ∃ own left, desk = ⟨own, some ⟨call, left⟩⟩ ∧ Conduct.Gives post left := by
  induction deeds generalizing c rest with
  | nil =>
    cases run
    exact ⟨c, rest, rfl, gives⟩
  | cons deed deeds ih =>
    obtain ⟨here, later⟩ := List.forall_mem_cons.mp within
    cases run with
    | cons step more =>
      cases step with
      | receive | wait => exact ih gives more later
      | exchange meets answered =>
        exact ih (gives.2 _ () ((exchange_meets meets).honest answered)) more later
      | answer => cases here

theorem Answers.given {c : Communicator} {call : Call} {answer : call.Answer}
    (answers : Answers c call answer) {post : call.Answer → Prop}
    (gives : Conduct.Gives post (c.conduct call)) : post answer := by
  obtain ⟨deeds, last, within, run⟩ := answers
  cases run with
  | cons step rest =>
    cases step
    obtain ⟨middle, run, more⟩ := Runs.split rest
    obtain ⟨own, left, rfl, gives⟩ := gives_runs gives run within
    cases more with
    | cons step =>
      cases step
      exact gives

theorem Refused.answers {c : Communicator} {call : Call} {answer : call.Answer}
    (h : Refused c call answer) : Answers c call answer := by
  obtain ⟨deeds, within, run⟩ := h.interposed [] (idle c) (.nil _)
  exact ⟨deeds, idle c, within, run⟩

theorem packet_tooLarge {frame : Frame} (large : Frame.maxLength < (encode frame).length) :
    frame.packet = .error (Frame.tooLarge (encode frame).length) := by
  rw [Frame.packet, if_pos large]

section Refusals

variable {c : Communicator} (formed : c.Formed)
include formed

theorem send_refused {target : Rank} (unrouted : ¬c.Routes target) (tag : UInt32)
    (payload : List UInt8) :
    Refused c (.send target tag payload) (.error (.unroutable c.rank target)) := by
  obtain ⟨-, route⟩ := (formed.route_eq target).resolve_left fun way => unrouted way.1
  refine Declines.refused ?_ formed
  rw [Communicator.conduct, Communicator.send, route]
  exact .done

theorem recv_refused {source : Rank} (unrouted : ¬c.Routes source) (tag : UInt32) :
    Refused c (.recv source tag) (.error (.unroutable c.rank source)) := by
  obtain ⟨-, route⟩ := (formed.route_eq source).resolve_left fun way => unrouted way.1
  refine Declines.refused ?_ formed
  rw [Communicator.conduct, Communicator.recv, route]
  exact .done

theorem rootless_refused {root : Rank} (other : root ≠ .coordinator)
    (payload : Option (List UInt8)) : Refused c (.broadcast root payload)
      (.error (.protocol s!"Broadcast root must be the coordinator, got rank {root}")) := by
  refine Declines.refused ?_ formed
  have rootless : (!root.isCoordinator) = true := by simpa [Rank.isCoordinator] using other
  change Declines _ _ (if !root.isCoordinator then _ else _)
  rw [if_pos rootless]
  exact .done

theorem empty_refused (hub : c.rank = .coordinator) : Refused c (.broadcast .coordinator none)
    (.error (.protocol "Broadcast root must supply a payload")) := by
  refine Declines.refused ?_ formed
  cases formed with
  | alone | coordinator => exact .done
  | member among => exact absurd hub (Rank.member_ne among)

theorem large_send_refused {target : Rank} {link : Link} {tag : UInt32} {payload : List UInt8}
    (has : c.topology.link? target = some link) (live : link.live = true)
    (large : Frame.maxLength < (encode (Frame.data tag payload)).length) :
    Refused c (.send target tag payload) (.error (.component
      (Frame.tooLarge (encode (Frame.data tag payload)).length))) := by
  have routes := formed.link_iff.mp (Option.isSome_of_eq_some has)
  obtain ⟨-, lost, route, -⟩ := (formed.route_eq target).resolve_right fun no => no.1 routes
  refine Declines.refused ?_ formed
  rw [Communicator.conduct, Communicator.send, route]
  exact .oversized has live (packet_tooLarge large) rfl

/-- The first member that is still there refuses the frame, and no other one is tried. -/
theorem large_broadcast_refused (hub : c.rank = .coordinator) (present : c.topology.livePeers ≠ [])
    {payload : List UInt8}
    (large : Frame.maxLength < (encode (Frame.broadcast payload)).length) :
    Refused c (.broadcast .coordinator (some payload)) (.error (.component
      (Frame.tooLarge (encode (Frame.broadcast payload)).length))) := by
  obtain ⟨first, others, live_peers⟩ := List.exists_cons_of_ne_nil present
  obtain ⟨link, hm, rfl⟩ := List.mem_map.mp (live_peers ▸ List.mem_cons_self : first ∈ _)
  obtain ⟨mem, live⟩ := List.mem_filter.mp hm
  have has := Topology.link_of_mem formed.nodup mem
  refine Declines.refused ?_ formed
  cases formed with
  | alone => cases mem
  | coordinator =>
    change Declines _ _ (Communicator.hubBroadcast _ payload (Topology.livePeers _))
    rw [live_peers]
    exact .oversized has live (packet_tooLarge large) rfl
  | member among => exact absurd hub (Rank.member_ne among)

end Refusals

/-- Of a participant of a group that has come together, whatever has become of its links. Sending
and receiving are unroutable just where there is no way, and a broadcast fails of itself just when
the root is another one than the coordinator or the coordinator supplies nothing. These calls are
refused, and so are a message on an open link and a broadcast to anybody whose frame is too large.
All this stays so, whatever is done. -/
theorem refused_calls_change_nothing {c : Communicator} (formed : c.Formed) :
    (∀ target tag payload,
      ((∃ origin goal, Answers c (.send target tag payload) (.error (.unroutable origin goal))) ↔
        ¬c.Routes target) ∧
      (¬c.Routes target →
        Refused c (.send target tag payload) (.error (.unroutable c.rank target)))) ∧
    (∀ source tag,
      ((∃ origin goal, Answers c (.recv source tag) (.error (.unroutable origin goal))) ↔
        ¬c.Routes source) ∧
      (¬c.Routes source → Refused c (.recv source tag) (.error (.unroutable c.rank source)))) ∧
    (∀ root payload,
      ((∃ message, Answers c (.broadcast root payload) (.error (.protocol message))) ↔
        root ≠ .coordinator ∨ c.rank = .coordinator ∧ payload = none) ∧
      (root ≠ .coordinator → Refused c (.broadcast root payload)
        (.error (.protocol s!"Broadcast root must be the coordinator, got rank {root}")))) ∧
    (c.rank = .coordinator → Refused c (.broadcast .coordinator none)
      (.error (.protocol "Broadcast root must supply a payload"))) ∧
    (∀ target tag payload link, c.topology.link? target = some link → link.live = true →
      1048576 < (encode (Frame.data tag payload)).length →
      Refused c (.send target tag payload) (.error (.component (.protocol
        s!"Frame too large: {(encode (Frame.data tag payload)).length} bytes")))) ∧
    (∀ payload, c.rank = .coordinator → c.topology.livePeers ≠ [] →
      1048576 < (encode (Frame.broadcast payload)).length →
      Refused c (.broadcast .coordinator (some payload)) (.error (.component (.protocol
        s!"Frame too large: {(encode (Frame.broadcast payload)).length} bytes")))) ∧
    ∀ deeds desk, Runs (idle c) deeds desk → desk.communicator.Formed := by
  refine ⟨fun target tag payload => ⟨⟨?_, fun no => ?_⟩, fun no => ?_⟩,
    fun source tag => ⟨⟨?_, fun no => ?_⟩, fun no => ?_⟩,
    fun root payload => ⟨⟨?_, ?_⟩, fun other => rootless_refused formed other payload⟩,
    empty_refused formed,
    fun _ _ _ _ has live large => large_send_refused formed has live large,
    fun _ hub present large => large_broadcast_refused formed hub present large,
    fun _ _ run => run.preserves Step.formed formed⟩
  · rintro ⟨origin, goal, answers⟩ routes
    exact answers.given (Communicator.send_gives formed routes tag payload) origin goal rfl
  · exact ⟨_, _, (send_refused formed no tag payload).answers⟩
  · exact send_refused formed no tag payload
  · rintro ⟨origin, goal, answers⟩ routes
    exact answers.given (Communicator.recv_gives formed routes tag) origin goal rfl
  · exact ⟨_, _, (recv_refused formed no tag).answers⟩
  · exact recv_refused formed no tag
  · rintro ⟨message, answers⟩
    by_cases other : root = .coordinator
    · subst other
      by_cases supplied : c.rank = .coordinator → payload ≠ none
      · exact absurd rfl (answers.given (Communicator.broadcast_gives formed supplied) message)
      · exact .inr (by simpa using supplied)
    · exact .inl other
  · rintro (other | ⟨hub, rfl⟩)
    · exact ⟨_, (rootless_refused formed other payload).answers⟩
    · by_cases other : root = .coordinator
      · subst other
        exact ⟨_, (empty_refused formed hub).answers⟩
      · exact ⟨_, (rootless_refused formed other none).answers⟩

def halfDeserted : Communicator :=
  ⟨.coordinator, 3, .hub [⟨⟨1⟩, false, [], .empty⟩, ⟨⟨2⟩, true, [.data 7 [1]], .empty⟩]⟩

theorem refused_calls_change_nothing_two :
    let payload := List.replicate 1048576 (0 : UInt8)
    Refused halfDeserted (.broadcast .coordinator (some payload))
      (.error (.component (.protocol "Frame too large: 1048588 bytes"))) ∧
    Refused halfDeserted (.send ⟨2⟩ 7 payload)
      (.error (.component (.protocol "Frame too large: 1048592 bytes"))) ∧
    Refused halfDeserted (.recv ⟨3⟩ 7) (.error (.unroutable .coordinator ⟨3⟩)) ∧
    Refused halfDeserted (.broadcast .coordinator none)
      (.error (.protocol "Broadcast root must supply a payload")) := by
  intro payload
  have formed : halfDeserted.Formed := .coordinator rfl
  have broadcast_length : (encode (Frame.broadcast payload)).length = 1048588 := by
    rw [Frame.length_encode_broadcast, List.length_replicate]
  have data_length : (encode (Frame.data 7 payload)).length = 1048592 := by
    rw [Frame.length_encode_data, List.length_replicate]
  obtain ⟨-, receiving, -, supplying, sending, broadcasting, -⟩ :=
    refused_calls_change_nothing formed
  have broadcast_refused := broadcasting payload rfl (by decide)
  have send_refused := sending ⟨2⟩ 7 payload _ rfl rfl
  rw [broadcast_length] at broadcast_refused
  rw [data_length] at send_refused
  exact ⟨broadcast_refused (by decide), send_refused (by decide),
    (receiving ⟨3⟩ 7).2 (by simp [Communicator.Routes, halfDeserted, Rank.mem_members]),
    supplying rfl⟩

end Desk
end FaultDrill
