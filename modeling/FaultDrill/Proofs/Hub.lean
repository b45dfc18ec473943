import FaultDrill.Proofs.Parting
set_option autoImplicit false

/-!
# The coordinator's links

From the acceptance of its members on the coordinator has one link to each of them, whatever calls
it makes and whatever comes on the links. Those who have left are known in order and for good.
-/
namespace FaultDrill
namespace Desk

variable {peer : Rank} {link : Link} {size : UInt32} {now later : Desk} {deeds : List Deed}

theorem Runs.sound (run : Runs now deeds later) (h : Sound size now) : Sound size later :=
  run.preserves (fun step sound => sound.step step) h

theorem Runs.departed_grows (run : Runs now deeds later) (h : Sound size now) :
    now.departed.Sublist later.departed := by
  induction run with
  | nil => exact .refl _
  | cons step _ ih => exact (h.departed_grows step).trans (ih (h.step step))

theorem Runs.unused (run : Runs now deeds later) (h : Sound size now)
    (unused : ∀ deed ∈ deeds, ¬deed.Uses peer) : peer ∈ later.departed ↔ peer ∈ now.departed := by
  induction run with
  | nil => rfl
  | cons step _ ih =>
    obtain ⟨here, rest⟩ := List.forall_mem_cons.mp unused
    refine (ih (h.step step) rest).trans ?_
    rw [h.mem_departed, (h.step step).mem_departed]
    constructor
    · rintro ⟨own, has, dead⟩
      obtain ⟨link, was, changes⟩ := h.link_before step has
      have same := (changes.live (h.hangs step)).resolve_right fun used => here used.1
      exact ⟨link, was, same.symm.trans dead⟩
    · rintro ⟨link, was, dead⟩
      obtain ⟨own, has, changes⟩ := step.changes was
      exact ⟨own, has, changes.stays_dead dead⟩

theorem Meets.unwritten {c : Communicator} {conditions : Communicator.Conditions}
    {exchange : Exchange} {effect : Communicator.Effect exchange.Answer}
    (h : Meets c conditions exchange effect) (has : c.topology.link? peer = some link)
    (dead : link.live = false) (bytes : List UInt8) : effect.bytes ≠ some (peer, bytes) := by
  cases h with
  | @send target frame old own sent carried at_target sends =>
    intro written
    obtain ⟨given, rfl, paired⟩ := Option.map_eq_some_iff.mp written
    cases paired
    obtain rfl := Option.some.inj (has.symm.trans at_target)
    cases sends with
    | delivered live => cases dead.symm.trans live
  | take | hangUp | note | sendNowhere | takeNowhere => rintro ⟨⟩

theorem Runs.unwritten (run : Runs now deeds later) (h : Sound size now)
    (left : peer ∈ now.departed) {exchange : Exchange} {conditions : Communicator.Conditions}
    {effect : Communicator.Effect exchange.Answer}
    (done : .exchanged exchange conditions effect ∈ deeds) (bytes : List UInt8) :
    effect.bytes ≠ some (peer, bytes) := by
  induction run with
  | nil => cases done
  | cons step _ ih =>
    rcases List.mem_cons.mp done with rfl | done
    · obtain ⟨link, has, dead⟩ := h.mem_departed.mp left
      cases step with
      | exchange meets | wait meets => exact (exchange_meets meets).unwritten has dead bytes
    · exact ih (h.step step) ((h.departed_grows step).subset left) done

theorem Runs.answers (run : Runs now deeds later) (h : Sound size now)
    (left : peer ∈ now.departed) (faithful : ∀ call rest, now.current = some ⟨call, rest⟩ →
      Faithful peer (now.kept peer) call rest) :
    (∀ tag payload answer, .answered (.send peer tag payload) answer ∈ deeds →
      answer = .error (.peerDeparted peer)) ∧
    ∀ (tag : UInt32) (i : Nat) (answer : Except GroupError (List UInt8)),
      (deeds.filterMap (Deed.receipt? peer tag))[i]? = some answer →
      answer = ((now.coming peer tag)[i]?).elim (.error (.peerDeparted peer)) .ok := by
  induction run with
  | nil => exact ⟨nofun, nofun⟩
  | cons step _ ih =>
    obtain ⟨faithful', refused, served⟩ := onward h left faithful step
    obtain ⟨sends, receipts⟩ := ih (h.step step) ((h.departed_grows step).subset left) faithful'
    refine ⟨fun tag payload answer hm => ?_, fun tag i answer hi => ?_⟩
    · rcases List.mem_cons.mp hm with rfl | hm
      · exact refused tag payload answer rfl
      · exact sends tag payload answer hm
    · -- The first of the answers is the head of what is to come, and the others find its tail.
      have here := served tag
      split at here
      · rename_i passed
        rw [List.filterMap_cons_none passed] at hi
        rw [← here]
        exact receipts tag i answer hi
      · rename_i first received
        rw [List.filterMap_cons_some received] at hi
        cases i with
        | zero =>
          cases hi
          rw [← List.head?_eq_getElem?]
          exact here.1
        | succ i =>
          rw [← List.getElem?_tail, ← here.2]
          exact receipts tag i answer hi

/-- Nothing is read from a member or written to it any more, whatever the surroundings are. -/
structure Silent (peer : Rank) (c : Communicator) : Prop where
  unsent : ∀ frame conditions,
    c.exchange? conditions (.send peer frame) = some ⟨some .gone, c, none⟩
  unread : ∃ link, c.topology.link? peer = some link ∧ link.inbox = .empty ∧
    (∀ bytes, link.receive bytes = link) ∧
    ∀ wanted conditions, c.exchange? conditions (.take peer wanted) = some (fromKept c link wanted)

theorem Sound.silent (h : Sound size now) (left : peer ∈ now.departed) :
    Silent peer now.communicator := by
  obtain ⟨link, has, dead⟩ := h.mem_departed.mp left
  exact ⟨closed_send h.nodup has dead, link, has, h.empty peer link has dead,
    Link.receive_dead dead, closed_take h.nodup has dead⟩

section Ends

variable (h : Sound size now) (left : peer ∈ now.departed) (free : now.current = none)
include h left free

theorem send_ends (tag : UInt32) (payload : List UInt8) (conditions : Communicator.Conditions) :
    Runs now [.started (.send peer tag payload),
      .exchanged (.send peer (.data tag payload)) conditions ⟨some .gone, now.communicator, none⟩,
      .answered (.send peer tag payload) (.error (.peerDeparted peer))] now := by
  obtain ⟨link, has, dead⟩ := h.mem_departed.mp left
  have meets := closed_send h.nodup has dead (.data tag payload) conditions
  obtain ⟨c, current⟩ := now
  cases free
  have start := Step.start c (.send peer tag payload)
  rw [conduct_send h.spoke has, deliver_eq] at start
  exact .cons start (.cons (.exchange meets rfl) (.cons (.answer c _ _) (.nil _)))

theorem recv_ends (tag : UInt32) (conditions : Communicator.Conditions) :
    ∃ effect, Runs now [.started (.recv peer tag),
      .exchanged (.take peer (.data tag)) conditions effect,
      .answered (.recv peer tag)
        ((payloads (.data tag) (now.kept peer)).head?.elim (.error (.peerDeparted peer)) .ok)]
      (idle effect.communicator) := by
  obtain ⟨link, has, dead⟩ := h.mem_departed.mp left
  have pending : now.kept peer = link.pending := by simp [kept, has]
  have meets := closed_take h.nodup has dead (.data tag) conditions
  obtain ⟨c, current⟩ := now
  cases free
  have start := Step.start c (.recv peer tag)
  rw [conduct_recv h.spoke has, awaitPayload_eq] at start
  rw [pending]
  rcases closed_take_cases h.nodup has dead meets with
    ⟨found, others, taken, effect⟩ | ⟨refused, effect⟩
  · obtain ⟨payload, rfl, first⟩ := payloads_removeFirst taken
    rw [effect] at meets
    rw [first]
    exact ⟨_, .cons start (.cons (.exchange meets rfl) (.cons (.answer _ _ _) (.nil _)))⟩
  · rw [effect] at meets
    rw [payloads_refused refused]
    exact ⟨_, .cons start (.cons (.exchange meets rfl) (.cons (.answer _ _ _) (.nil _)))⟩

end Ends

/-- What a step may do to the links, and what a call tells of them. -/
structure Upkeep (now : Desk) (deed : Deed) (next : Desk) : Prop where
  told : ∀ answer, deed = .answered .departed answer → answer = now.departed
  asked : ∀ exchange conditions effect, deed = .exchanged exchange conditions effect →
    ∃ call, now.call? = some call ∧ call.Asks exchange
  links : ∀ peer link, now.link? peer = some link → ∃ own, next.link? peer = some own ∧
    own.peer = peer ∧ (own.live = link.live ∨
      link.live = true ∧ own.live = false ∧ deed.Uses peer ∧ deed.Severs peer now.call?)

/-- What becomes of a member that has left while the coordinator goes on. -/
structure Gone (peer : Rank) (now : Desk) (deeds : List Deed) (later : Desk) : Prop where
  silent : Silent peer later.communicator
  unwritten : ∀ exchange conditions effect bytes,
    Deed.exchanged exchange conditions effect ∈ deeds → effect.bytes ≠ some (peer, bytes)
  sends : now.current = none → ∀ tag payload answer,
    Deed.answered (.send peer tag payload) answer ∈ deeds → answer = .error (.peerDeparted peer)
  /-- First come the messages that were kept, in order, and then it has left for ever. -/
  receipts : now.current = none → ∀ (tag : UInt32) (i : Nat) answer,
    (deeds.filterMap (Deed.receipt? peer tag))[i]? = some answer →
    answer = (payloads (.data tag) (now.kept peer))[i]?.elim (.error (.peerDeparted peer)) .ok
  send_ends : later.current = none → ∀ tag payload conditions,
    Runs later [.started (.send peer tag payload),
      .exchanged (.send peer (.data tag payload)) conditions
        ⟨some .gone, later.communicator, none⟩,
      .answered (.send peer tag payload) (.error (.peerDeparted peer))] later
  recv_ends : later.current = none → ∀ tag conditions,
    ∃ effect, Runs later [.started (.recv peer tag),
      .exchanged (.take peer (.data tag)) conditions effect,
      .answered (.recv peer tag)
        ((payloads (.data tag) (later.kept peer)).head?.elim (.error (.peerDeparted peer)) .ok)]
      (idle effect.communicator)

theorem Sound.upkeep {next : Desk} {deed : Deed} (h : Sound size now) (step : Step now deed next) :
    Upkeep now deed next := by
  refine ⟨?_, ?_, fun peer link has => ?_⟩
  · rintro answer rfl
    cases step
    exact Program.done.inj (h.sampled _ rfl)
  · rintro exchange conditions effect rfl
    cases step with
    | @exchange c call | @wait c call => exact ⟨call, rfl, (h.asks call _ rfl).1⟩
  · obtain ⟨own, has', changes⟩ := step.changes has
    refine ⟨own, has', Topology.peer_of_link has', ?_⟩
    rcases changes.live (h.hangs step) with same | ⟨used, severed, kept, rfl⟩
    · exact .inl same
    · cases live : link.live with
      | true => exact .inr ⟨rfl, rfl, used, severed⟩
      | false => exact .inl rfl

theorem Runs.gone (run : Runs now deeds later) (h : Sound size now) (left : peer ∈ now.departed) :
    Gone peer now deeds later := by
  have sound := run.sound h
  have still := (run.departed_grows h).subset left
  have answers : now.current = none → _ := fun free =>
    run.answers h left fun call rest current => by cases free.symm.trans current
  have coming : now.current = none → ∀ tag,
      now.coming peer tag = payloads (.data tag) (now.kept peer) := fun free tag => by
    rw [Desk.coming, free]
    rfl
  exact {
    silent := sound.silent still
    unwritten := fun _ _ _ bytes done => run.unwritten h left done bytes
    sends := fun free => (answers free).1
    receipts := fun free tag i answer received =>
      coming free tag ▸ (answers free).2 tag i answer received
    send_ends := send_ends sound still
    recv_ends := recv_ends sound still }

theorem sound_idle {c : Communicator}
    (shape : c.shape = (.coordinator, size, Rank.members size, false))
    (live : ∀ peer link, c.topology.link? peer = some link → link.live = true) :
    Sound size (idle c) := by
  refine ⟨shape, fun peer link has dead => ?_, nofun, nofun⟩
  cases dead.symm.trans (live peer link has)

/-- Of a coordinator that has accepted its members. Whatever calls it makes and whatever comes on
its links, it has one link to each member; it knows who has left, in order and for good; what is
kept from a member is in the order of arrival. A link only dies in a step that uses it, of a
disconnect or of finalizing. A member that has left is neither read from nor written to; sending to
it fails, and what was kept of it is received in order until that fails too. -/
theorem coordinator_links {size : UInt32} {timeout : Duration} {address origin : String}
    {connections : List Incoming} {c : Communicator} {notes : List LogEntry} (several : 2 ≤ size)
    (accepted : Bootstrap.acceptMembers size timeout address origin connections = (.ok c, notes))
    {past : List Deed} {now : Desk} (run : Runs (idle c) past now) :
    (∃ links, now.communicator.topology = .hub links ∧
      links.map Link.peer = Rank.members size) ∧
    (now.departed.Pairwise fun a b => a.index < b.index) ∧
    (∀ peer, peer ∈ now.departed ↔ ∃ link, now.link? peer = some link ∧ link.live = false) ∧
    (∀ peer link, (idle c).link? peer = some link → (now.kept peer).Sublist
      (Arrival.whole (link.receive (past.flatMap (Deed.heard peer))).inbox.arrivals)) ∧
    (∀ deed next, Step now deed next → Upkeep now deed next) ∧
    ∀ deeds later, Runs now deeds later →
      now.departed.Sublist later.departed ∧
      (∀ peer, (∀ deed ∈ deeds, ¬deed.Uses peer) →
        (peer ∈ later.departed ↔ peer ∈ now.departed)) ∧
      ∀ peer ∈ now.departed, Gone peer now deeds later := by
  obtain ⟨links, rfl, peers, fresh⟩ := Bootstrap.accepted accepted
  have opened : ∀ peer link, (Topology.hub links).link? peer = some link →
      link.live = true ∧ link.pending = [] :=
    fun peer link has => fresh link (List.mem_of_find?_eq_some has)
  have shape : Communicator.shape ⟨.coordinator, size, .hub links⟩ =
      (.coordinator, size, Rank.members size, false) := by
    rw [← peers]
    rfl
  have start := sound_idle shape fun peer link has => (opened peer link has).1
  have h := run.sound start
  refine ⟨h.hub several, h.ascending, fun peer => h.mem_departed, fun peer link has => ?_,
    fun deed next step => h.upkeep step, fun deeds later further =>
      ⟨further.departed_grows h, fun peer => further.unused h,
        fun peer left => further.gone h left⟩⟩
  obtain ⟨own, there, order⟩ := run.order has
  obtain ⟨live, empty⟩ := opened peer link has
  have arrived : (link.receive (past.flatMap (Deed.heard peer))).standing =
      Arrival.whole (link.receive (past.flatMap (Deed.heard peer))).inbox.arrivals := by
    simp [Link.standing, Link.incoming, live, empty]
  rw [arrived] at order
  simpa [kept, there] using (List.sublist_append_left own.pending _).trans order

/-- Member 1 has joined, sent one message with tag 7 and gone; the coordinator has noticed when
it waited for one with tag 9. -/
def leaver : Incoming := ⟨⟨[.frame (.join ⟨1⟩), .frame (.data 7 [1])], []⟩, true⟩

def joined : Communicator :=
  ⟨.coordinator, 2, .hub [⟨⟨1⟩, true, [], ⟨[.frame (.data 7 [1])], []⟩⟩]⟩

def noticed : Communicator := ⟨.coordinator, 2, .hub [⟨⟨1⟩, false, [.data 7 [1]], .empty⟩]⟩

def hungUp : Communicator.Conditions := ⟨fun _ => true, fun _ => .accepted, none⟩

def noticing : List Deed := [.started (.recv ⟨1⟩ 9),
  .exchanged (.take ⟨1⟩ (.data 9)) hungUp ⟨some .gone, noticed, none⟩,
  .answered (.recv ⟨1⟩ 9) (.error (.peerDeparted ⟨1⟩))]

theorem coordinator_links_two : ∃ notes,
    Bootstrap.acceptMembers 2 (.ofSeconds 1) "" "" [leaver] = (.ok joined, notes) ∧
    Runs (idle joined) noticing (idle noticed) ∧ (idle noticed).departed = [⟨1⟩] ∧
    (∃ effect, Runs (idle noticed) [.started (.recv ⟨1⟩ 7),
      .exchanged (.take ⟨1⟩ (.data 7)) hungUp effect,
      .answered (.recv ⟨1⟩ 7) (.ok [1])] (idle effect.communicator)) ∧
    Runs (idle noticed) [.started (.send ⟨1⟩ 9 []),
      .exchanged (.send ⟨1⟩ (.data 9 [])) hungUp ⟨some .gone, noticed, none⟩,
      .answered (.send ⟨1⟩ 9 []) (.error (.peerDeparted ⟨1⟩))] (idle noticed) := by
  have accepted : Bootstrap.acceptMembers 2 (.ofSeconds 1) "" "" [leaver] =
    (.ok joined, (Bootstrap.acceptMembers 2 (.ofSeconds 1) "" "" [leaver]).2) := Prod.ext rfl rfl
  have run : Runs (idle joined) noticing (idle noticed) :=
    .cons (.start joined _) (.cons (.exchange rfl rfl) (.cons (.answer noticed _ _) (.nil _)))
  have left : ⟨1⟩ ∈ (idle noticed).departed := by decide
  obtain ⟨-, -, -, -, -, further⟩ := coordinator_links (by decide) accepted run
  have gone := (further [] (idle noticed) (.nil _)).2.2 ⟨1⟩ left
  exact ⟨_, accepted, run, rfl, gone.recv_ends rfl 7 hungUp, gone.send_ends rfl 9 [] hungUp⟩

end Desk
end FaultDrill
