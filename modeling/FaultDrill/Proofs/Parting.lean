import FaultDrill.Proofs.Delivery
import FaultDrill.Proofs.Desk
import FaultDrill.Proofs.Joining
import FaultDrill.Proofs.Scope
set_option autoImplicit false

namespace FaultDrill

theorem payloads_refused {wanted : Wanted} {frames : List Frame}
    (refused : ∀ frame ∈ frames, wanted.accepts frame = false) : payloads wanted frames = [] := by
  rw [payloads, List.filter_eq_nil_iff.mpr (by simpa using refused)]
  rfl

theorem payloads_removeFirst {tag : UInt32} {frames others : List Frame} {found : Frame}
    (h : Link.removeFirst? (Wanted.data tag).accepts frames = some (found, others)) :
    ∃ payload, found = .data tag payload ∧
      payloads (.data tag) frames = payload :: payloads (.data tag) others := by
  obtain ⟨before, after, rfl, rfl, accepted, passed⟩ := Link.removeFirst_eq_some h
  cases found with
  | data other payload =>
    obtain rfl : other = tag := by simpa [Wanted.accepts] using accepted
    refine ⟨payload, rfl, ?_⟩
    rw [payloads_append, payloads_append, payloads_refused passed]
    simp [payloads, Wanted.accepts, Frame.payload?]
  | join | barrierEnter | barrierRelease | broadcast => simp [Wanted.accepts] at accepted

theorem payloads_removeOther {wanted : Wanted} {tag : UInt32} {frames others : List Frame}
    {found : Frame} (other : wanted ≠ .data tag)
    (h : Link.removeFirst? wanted.accepts frames = some (found, others)) :
    payloads (.data tag) others = payloads (.data tag) frames := by
  obtain ⟨before, after, rfl, rfl, accepted, -⟩ := Link.removeFirst_eq_some h
  have refused : (Wanted.data tag).accepts found = false := by
    cases found with
    | data own payload =>
      cases wanted with
      | data wanted =>
        obtain rfl : own = wanted := by simpa [Wanted.accepts] using accepted
        simpa [Wanted.accepts] using other
      | barrierEnter | barrierRelease | broadcast => simp [Wanted.accepts] at accepted
    | join | barrierEnter | barrierRelease | broadcast => rfl
  have alone : payloads (.data tag) [found] = [] := payloads_refused (by simpa using refused)
  rw [payloads_append, payloads_append, ← List.singleton_append, payloads_append, alone]
  rfl

namespace Desk

variable {desk next : Desk} {deed : Deed} {peer : Rank} {link own : Link}

/-- The deed ends a link: reading from it or writing to it ends in a disconnect, or its
participant, in the middle of this call, finalizes. -/
inductive Deed.Severs (peer : Rank) (call? : Option Call) : Deed → Prop where
  | read {wanted : Wanted} {conditions : Communicator.Conditions}
      {effect : Communicator.Effect Taken}
      (disconnect : conditions.breakdown = none ∧ conditions.ended peer = true ∨
        ∃ kind, conditions.breakdown = some kind ∧ kind.isDisconnect = true)
      (gone : effect.answer = some .gone) :
      Severs peer call? (.exchanged (.take peer wanted) conditions effect)
  | write {frame : Frame} {conditions : Communicator.Conditions}
      {effect : Communicator.Effect Sent} {kind : FaultKind}
      (refused : conditions.reception peer = .refused kind) (disconnect : kind.isDisconnect = true)
      (gone : effect.answer = some .gone) :
      Severs peer call? (.exchanged (.send peer frame) conditions effect)
  | finalize {conditions : Communicator.Conditions} {effect : Communicator.Effect Unit}
      (finalizing : call? = some .finalize) :
      Severs peer call? (.exchanged .hangUp conditions effect)

theorem Deed.Changes.live (h : deed.Changes peer link own) {call? : Option Call}
    (hangs : ∀ conditions effect, deed = .exchanged .hangUp conditions effect →
      call? = some .finalize) :
    own.live = link.live ∨ deed.Uses peer ∧ deed.Severs peer call? ∧
      ∃ kept, own = Link.close { link with pending := kept } := by
  cases h with
  | kept => exact .inl rfl
  | received bytes => exact .inl (link.receive_live bytes)
  | sent sends answer =>
    cases sends with
    | lost live refused disconnect =>
      exact .inr ⟨rfl, .write refused disconnect answer, link.pending, rfl⟩
    | dead | oversized | delivered | broken => exact .inl rfl
  | @took wanted conditions effect own takes =>
    have lives := Link.take_live wanted.accepts (conditions.ended peer) conditions.breakdown link
    rw [takes] at lives
    exact lives.imp_right fun ⟨disconnect, gone, shut⟩ => ⟨rfl, .read disconnect gone, shut⟩
  | closed => exact .inr ⟨trivial, .finalize (hangs _ _ rfl), link.pending, rfl⟩

theorem Deed.Changes.stays_dead (h : deed.Changes peer link own) (dead : link.live = false) :
    own.live = false := by
  rcases h.live fun _ _ _ => rfl with lives | ⟨-, -, kept, rfl⟩
  · exact lives.trans dead
  · rfl

theorem Deed.Changes.empty (h : deed.Changes peer link own)
    (empty : link.live = false → link.inbox = .empty) (dead : own.live = false) :
    own.inbox = .empty := by
  cases h with
  | kept => exact empty dead
  | received bytes =>
    rw [link.receive_live] at dead
    rw [Link.receive_dead dead]
    exact empty dead
  | sent sends =>
    cases sends with
    | lost => rfl
    | dead | oversized | delivered | broken => exact empty dead
  | @took wanted conditions effect own takes =>
    have lives := Link.take_live wanted.accepts (conditions.ended peer) conditions.breakdown link
    rw [takes] at lives
    rcases lives with lives | ⟨-, -, kept, rfl⟩
    · have link_dead := lives.symm.trans dead
      cases unkept : Link.removeFirst? wanted.accepts link.pending with
      | some result =>
        rw [Link.take_kept unkept] at takes
        rw [← (Prod.mk.inj takes).2]
        exact empty link_dead
      | none =>
        rw [Link.take_dead unkept link_dead] at takes
        rw [← (Prod.mk.inj takes).2]
        exact empty link_dead
    · rfl
  | closed => rfl

def call? (desk : Desk) : Option Call := desk.current.map Sigma.fst

theorem Meets.shape {c : Communicator} {conditions : Communicator.Conditions}
    {exchange : Exchange} {effect : Communicator.Effect exchange.Answer}
    (h : Meets c conditions exchange effect) : effect.communicator.shape = c.shape := by
  cases h with
  | send | take => exact c.shape_setLink _
  | hangUp => exact c.shape_hangUp
  | note | sendNowhere | takeNowhere => rfl

theorem Step.shape (step : Step desk deed next) :
    next.communicator.shape = desk.communicator.shape := by
  cases step with
  | receive => exact Communicator.shape_setLink _ _
  | exchange meets | wait meets => exact (exchange_meets meets).shape
  | start | answer => rfl

theorem Step.peers (step : Step desk deed next) :
    next.communicator.topology.peers = desk.communicator.topology.peers :=
  congrArg (fun shape => shape.2.2.1) step.shape

theorem departed_filter {size : UInt32}
    (peers : desk.communicator.topology.peers = Rank.members size) : desk.departed =
    (Rank.members size).filter fun peer => (desk.link? peer).any fun link => !link.live := by
  rw [← peers]
  exact Topology.filter_peers (peers ▸ Rank.nodup_members size) _

/-- What holds of the coordinator's desk in a group, whatever happens to it. -/
structure Sound (size : UInt32) (desk : Desk) : Prop where
  shape : desk.communicator.shape = (.coordinator, size, Rank.members size, false)
  empty : ∀ peer link, desk.link? peer = some link → link.live = false → link.inbox = .empty
  asks : ∀ call rest, desk.current = some ⟨call, rest⟩ → rest.Asks call.Asks
  sampled : ∀ rest, desk.current = some ⟨.departed, rest⟩ → rest = .done desk.departed

namespace Sound

variable {size : UInt32}

theorem peers (h : Sound size desk) : desk.communicator.topology.peers = Rank.members size :=
  congrArg (fun shape => shape.2.2.1) h.shape

theorem spoke (h : Sound size desk) : desk.communicator.topology.isSpoke = false :=
  congrArg (fun shape => shape.2.2.2) h.shape

theorem nodup (h : Sound size desk) : desk.communicator.topology.peers.Nodup :=
  h.peers ▸ Rank.nodup_members size

theorem link_iff (h : Sound size desk) :
    (∃ link, desk.link? peer = some link) ↔ peer ∈ Rank.members size := by
  rw [← h.peers, ← Topology.link_isSome, Option.isSome_iff_exists]
  rfl

theorem hub (h : Sound size desk) (several : 2 ≤ size) :
    ∃ links, desk.communicator.topology = .hub links ∧ links.map Link.peer = Rank.members size := by
  have peers := h.peers
  have spoke := h.spoke
  cases topology : desk.communicator.topology with
  | hub links =>
    rw [topology] at peers
    exact ⟨links, rfl, peers⟩
  | alone =>
    have first : (⟨1⟩ : Rank) ∈ Rank.members size :=
      Rank.mem_members.mpr ⟨by decide, UInt32.le_iff_toNat_le.mp several⟩
    rw [← peers, topology] at first
    cases first
  | spoke link =>
    rw [topology] at spoke
    cases spoke

theorem departed_eq (h : Sound size desk) : desk.departed =
    (Rank.members size).filter fun peer => (desk.link? peer).any fun link => !link.live :=
  departed_filter h.peers

theorem mem_departed (h : Sound size desk) :
    peer ∈ desk.departed ↔ ∃ link, desk.link? peer = some link ∧ link.live = false := by
  rw [h.departed_eq, List.mem_filter, ← h.link_iff]
  constructor
  · rintro ⟨⟨link, has⟩, dead⟩
    exact ⟨link, has, by simpa [has] using dead⟩
  · rintro ⟨link, has, dead⟩
    exact ⟨⟨link, has⟩, by simp [has, dead]⟩

theorem ascending (h : Sound size desk) :
    desk.departed.Pairwise fun a b => a.index < b.index := by
  rw [h.departed_eq]
  exact (Rank.ascending_members size).sublist List.filter_sublist

theorem hangs (h : Sound size desk) (step : Step desk deed next)
    (conditions : Communicator.Conditions) (effect : Communicator.Effect Unit)
    (hangUp : deed = .exchanged .hangUp conditions effect) : desk.call? = some .finalize := by
  have finalizing : ∀ call rest, desk.current = some ⟨call, .ask .hangUp rest⟩ →
      desk.call? = some .finalize := by
    intro call rest current
    have asked := (h.asks call _ current).1
    rw [call?, current]
    cases call with
    | finalize => rfl
    | barrier | broadcast | send | recv | departed => cases asked
  subst hangUp
  cases step with
  | exchange | wait => exact finalizing _ _ rfl

theorem link_before (h : Sound size desk) (step : Step desk deed next)
    (has : next.link? peer = some own) :
    ∃ link, desk.link? peer = some link ∧ deed.Changes peer link own := by
  have there : (next.communicator.topology.link? peer).isSome := Option.isSome_of_eq_some has
  rw [Topology.link_isSome, step.peers, h.peers, ← h.link_iff] at there
  obtain ⟨link, was⟩ := there
  obtain ⟨own', has', changes⟩ := step.changes was
  obtain rfl := Option.some.inj (has'.symm.trans has)
  exact ⟨link, was, changes⟩

theorem departed_unused (h : Sound size desk) (step : Step desk deed next)
    (unused : ∀ peer, ¬deed.Uses peer) : next.departed = desk.departed := by
  rw [h.departed_eq, departed_filter (step.peers.trans h.peers)]
  refine List.filter_congr fun peer hm => ?_
  obtain ⟨link, has⟩ := h.link_iff.mpr hm
  obtain ⟨own, has', changes⟩ := step.changes has
  have same := (changes.live (h.hangs step)).resolve_right fun used => unused peer used.1
  simp [has, has', same]

theorem step (h : Sound size desk) (step : Step desk deed next) : Sound size next := by
  refine ⟨step.shape.trans h.shape, fun peer own has dead => ?_, fun call rest current => ?_,
    fun rest current => ?_⟩
  · obtain ⟨link, was, changes⟩ := h.link_before step has
    exact changes.empty (h.empty peer link was) dead
  · cases step with
    | receive => exact h.asks call rest current
    | start c started =>
      cases current
      exact c.conduct_asks call
    | exchange =>
      cases current
      exact (h.asks _ _ rfl).next _
    | wait =>
      cases current
      exact h.asks _ _ rfl
    | answer => cases current
  · have unused := h.departed_unused step
    cases step with
    | receive => rw [unused fun _ => id, h.sampled rest current]
    | start c started =>
      cases current
      rfl
    | exchange | wait =>
      cases current
      cases h.sampled _ rfl
    | answer => cases current

theorem departed_grows (h : Sound size desk) (step : Step desk deed next) :
    desk.departed.Sublist next.departed := by
  have fewer : desk.departed =
      next.departed.filter fun peer => (desk.link? peer).any fun link => !link.live := by
    rw [h.departed_eq, (h.step step).departed_eq, List.filter_filter]
    refine List.filter_congr fun peer hm => ?_
    obtain ⟨link, has⟩ := h.link_iff.mpr hm
    obtain ⟨own, has', changes⟩ := step.changes has
    cases dead : link.live with
    | true => simp [has, dead]
    | false => simp [has, has', dead, changes.stays_dead dead]
  rw [fewer]
  exact List.filter_sublist

end Sound

theorem setLink_self {c : Communicator} (nodup : c.topology.peers.Nodup)
    (has : c.topology.link? peer = some link) : c.setLink link = c := by
  have same : ∀ old ∈ c.topology.links, (if old.peer = link.peer then link else old) = old := by
    intro old hm
    split
    · rename_i he
      have found := Topology.link_of_mem nodup hm
      rw [he, Topology.peer_of_link has, has] at found
      exact Option.some.inj found
    · rfl
  obtain ⟨rank, size, topology⟩ := c
  simp only [Communicator.setLink, Topology.setLink, Communicator.mk.injEq, true_and]
  cases topology with
  | alone => rfl
  | hub links => exact congrArg Topology.hub ((List.map_congr_left same).trans links.map_id')
  | spoke old => exact congrArg Topology.spoke (same old (List.mem_singleton_self _))

def fromKept (c : Communicator) (link : Link) (wanted : Wanted) : Communicator.Effect Taken :=
  match Link.removeFirst? wanted.accepts link.pending with
  | some (found, others) => ⟨some (.frame found), c.setLink { link with pending := others }, none⟩
  | none => ⟨some .gone, c, none⟩

section Closed

variable {c : Communicator} (nodup : c.topology.peers.Nodup)
  (has : c.topology.link? peer = some link) (dead : link.live = false)
include nodup has dead

theorem closed_send (frame : Frame) (conditions : Communicator.Conditions) :
    c.exchange? conditions (.send peer frame) = some ⟨some .gone, c, none⟩ := by
  simp [Communicator.exchange?, has, Link.send, dead, setLink_self nodup has]

theorem closed_take (wanted : Wanted) (conditions : Communicator.Conditions) :
    c.exchange? conditions (.take peer wanted) = some (fromKept c link wanted) := by
  cases kept : Link.removeFirst? wanted.accepts link.pending with
  | some result => simp [Communicator.exchange?, has, Link.take_kept kept, fromKept, kept]
  | none =>
    simp [Communicator.exchange?, has, Link.take_dead kept dead, fromKept, kept,
      setLink_self nodup has]

theorem closed_take_cases {wanted : Wanted} {conditions : Communicator.Conditions}
    {effect : Communicator.Effect Taken}
    (meets : c.exchange? conditions (.take peer wanted) = some effect) :
    (∃ found others, Link.removeFirst? wanted.accepts link.pending = some (found, others) ∧
      effect = ⟨some (.frame found), c.setLink { link with pending := others }, none⟩) ∨
    (∀ frame ∈ link.pending, wanted.accepts frame = false) ∧ effect = ⟨some .gone, c, none⟩ := by
  obtain rfl := Option.some.inj (meets.symm.trans (closed_take nodup has dead wanted conditions))
  cases found : Link.removeFirst? wanted.accepts link.pending with
  | some result => exact .inl ⟨result.1, result.2, rfl, by simp [fromKept, found]⟩
  | none => exact .inr ⟨Link.removeFirst_eq_none found, by simp [fromKept, found]⟩

end Closed

section Route

variable {c : Communicator} (spoke : c.topology.isSpoke = false)
  (has : c.topology.link? peer = some link)
include spoke has

theorem route_left : c.route peer = .ok (.peerDeparted peer) := by
  have there := Option.isSome_of_eq_some has
  cases topology : c.topology with
  | spoke old =>
    rw [topology] at spoke
    cases spoke
  | alone | hub =>
    rw [topology] at there
    simp [Communicator.route, topology, there]

theorem conduct_send (tag : UInt32) (payload : List UInt8) :
    c.conduct (.send peer tag payload) =
      Communicator.deliver peer (.data tag payload) (.peerDeparted peer) := by
  simp [Communicator.conduct, Communicator.send, route_left spoke has]

theorem conduct_recv (tag : UInt32) : c.conduct (.recv peer tag) =
    Communicator.awaitPayload peer (.data tag) (.peerDeparted peer) := by
  simp [Communicator.conduct, Communicator.recv, route_left spoke has]

end Route

theorem deliver_eq (frame : Frame) (lost : GroupError) :
    Communicator.deliver peer frame lost = .ask (.send peer frame) fun
      | .failed error => .done (.error (.component error))
      | .gone => .done (.error lost)
      | .delivered => .done (.ok ()) := by
  refine congrArg (Program.ask (I := Exchange.interface) (.send peer frame)) (funext fun sent => ?_)
  cases sent <;> rfl

theorem awaitPayload_eq (wanted : Wanted) (lost : GroupError) :
    Communicator.awaitPayload peer wanted lost = .ask (.take peer wanted) fun
      | .failed error => .done (.error (.component error))
      | .gone => .done (.error lost)
      | .frame frame => .done (Communicator.payloadOf frame) := by
  refine congrArg (Program.ask (I := Exchange.interface) (.take peer wanted))
    (funext fun taken => ?_)
  cases taken <;> rfl

/-- How far a call is that goes to a member that has left, and of which these frames are kept. -/
inductive Faithful (peer : Rank) (kept : List Frame) : (call : Call) → Conduct call.Answer → Prop
  | sending (tag : UInt32) (payload : List UInt8) {rest : Conduct (Except GroupError Unit)}
      (asks : rest = Communicator.deliver peer (.data tag payload) (.peerDeparted peer)) :
      Faithful peer kept (.send peer tag payload) rest
  | unsent (tag : UInt32) (payload : List UInt8) :
      Faithful peer kept (.send peer tag payload) (.done (.error (.peerDeparted peer)))
  | receiving (tag : UInt32) {rest : Conduct (Except GroupError (List UInt8))}
      (asks : rest = Communicator.awaitPayload peer (.data tag) (.peerDeparted peer)) :
      Faithful peer kept (.recv peer tag) rest
  | found (tag : UInt32) (payload : List UInt8) :
      Faithful peer kept (.recv peer tag) (.done (.ok payload))
  | missing (tag : UInt32) (used : payloads (.data tag) kept = []) :
      Faithful peer kept (.recv peer tag) (.done (.error (.peerDeparted peer)))
  | other {call : Call} {rest : Conduct call.Answer}
      (notSend : ∀ tag payload, call ≠ .send peer tag payload)
      (notRecv : ∀ tag, call ≠ .recv peer tag) : Faithful peer kept call rest

theorem faithful_conduct {c : Communicator} (spoke : c.topology.isSpoke = false)
    (has : c.topology.link? peer = some link) (kept : List Frame) (call : Call) :
    Faithful peer kept call (c.conduct call) := by
  cases call with
  | send target tag payload =>
    by_cases he : target = peer
    · subst he
      exact .sending tag payload (conduct_send spoke has tag payload)
    · exact .other (by simp [he]) nofun
  | recv source tag =>
    by_cases he : source = peer
    · subst he
      exact .receiving tag (conduct_recv spoke has tag)
    · exact .other nofun (by simp [he])
  | barrier | broadcast | departed | finalize => exact .other nofun nofun

def kept (peer : Rank) (desk : Desk) : List Frame := ((desk.link? peer).map Link.pending).getD []

def held (peer : Rank) (tag : UInt32) : Option ((call : Call) × Conduct call.Answer) →
    List (List UInt8)
  | some ⟨.recv source found, .done (.ok payload)⟩ =>
    if source = peer ∧ found = tag then [payload] else []
  | _ => []

/-- The messages with a tag that can still be received from a member that has left. -/
def coming (peer : Rank) (tag : UInt32) (desk : Desk) : List (List UInt8) :=
  held peer tag desk.current ++ payloads (.data tag) (desk.kept peer)

def Deed.receipt? (peer : Rank) (tag : UInt32) : Deed → Option (Except GroupError (List UInt8))
  | answered (.recv source found) answer =>
    if source = peer ∧ found = tag then some answer else none
  | _ => none

theorem receipt_same (tag : UInt32) (answer : Except GroupError (List UInt8)) :
    (Deed.answered (.recv peer tag) answer).receipt? peer tag = some answer := if_pos ⟨rfl, rfl⟩

theorem receipt_other {tag : UInt32} {call : Call} {answer : call.Answer}
    (notRecv : call ≠ .recv peer tag) : (Deed.answered call answer).receipt? peer tag = none := by
  cases call with
  | recv source found => exact if_neg fun h => notRecv (by rw [h.1, h.2])
  | barrier | broadcast | send | departed | finalize => rfl

theorem held_ask {tag : UInt32} {call : Call} {exchange : Exchange}
    {rest : exchange.Answer → Conduct call.Answer} :
    held peer tag (some ⟨call, .ask exchange rest⟩) = [] := by
  cases call <;> rfl

theorem held_other {tag : UInt32} {call : Call} {rest : Conduct call.Answer}
    (notRecv : call ≠ .recv peer tag) : held peer tag (some ⟨call, rest⟩) = [] := by
  unfold held
  split
  · rename_i source found payload current
    cases current
    exact if_neg fun h => notRecv (by rw [h.1, h.2])
  · rfl

theorem held_conduct {c : Communicator} (spoke : c.topology.isSpoke = false)
    (has : c.topology.link? peer = some link) (tag : UInt32) (call : Call) :
    held peer tag (some ⟨call, c.conduct call⟩) = [] := by
  by_cases receiving : call = .recv peer tag
  · subst receiving
    rw [conduct_recv spoke has, awaitPayload_eq]
    exact held_ask
  · exact held_other receiving

theorem coming_found {tag : UInt32} {payload : List UInt8}
    (found : desk.current = some ⟨.recv peer tag, .done (.ok payload)⟩) :
    desk.coming peer tag = payload :: payloads (.data tag) (desk.kept peer) := by
  have holds : held peer tag desk.current = [payload] := by
    rw [found]
    exact if_pos ⟨rfl, rfl⟩
  rw [coming, holds]
  rfl

theorem coming_same {tag : UInt32} (before : held peer tag desk.current = [])
    (after : held peer tag next.current = [])
    (same : payloads (.data tag) (next.kept peer) = payloads (.data tag) (desk.kept peer)) :
    next.coming peer tag = desk.coming peer tag := by
  rw [coming, coming, before, after, same]

theorem coming_taken {tag : UInt32} {payload : List UInt8} {others : List Frame}
    (has : desk.link? peer = some link) (before : held peer tag desk.current = [])
    (first : payloads (.data tag) link.pending = payload :: payloads (.data tag) others) :
    coming peer tag ⟨desk.communicator.setLink { link with pending := others },
      some ⟨.recv peer tag, .done (.ok payload)⟩⟩ = desk.coming peer tag := by
  have same : (desk.communicator.setLink { link with pending := others }).topology.link? peer =
      some { link with pending := others } :=
    link_setLink_same has (show link.peer = peer from Topology.peer_of_link has)
  refine (coming_found rfl).trans ?_
  simp [coming, before, kept, link?, same, show desk.communicator.topology.link? peer = _ from has,
    first]

/-- A deed at the desk, seen from a member that has left: calls to it go on as they must, sending
to it fails, and what is received from it is what comes next. -/
structure Onward (peer : Rank) (desk : Desk) (deed : Deed) (next : Desk) : Prop where
  faithful : ∀ call rest, next.current = some ⟨call, rest⟩ →
    Faithful peer (next.kept peer) call rest
  refused : ∀ tag payload answer, deed = .answered (.send peer tag payload) answer →
    answer = .error (.peerDeparted peer)
  served : ∀ tag, match deed.receipt? peer tag with
    | none => next.coming peer tag = desk.coming peer tag
    | some answer =>
      answer = ((desk.coming peer tag).head?).elim (.error (.peerDeparted peer)) .ok ∧
        next.coming peer tag = (desk.coming peer tag).tail

section Left

variable {size : UInt32} (h : Sound size desk) (left : peer ∈ desk.departed)
include h left

theorem kept_untaken (step : Step desk deed next)
    (untaken : ∀ wanted conditions effect,
      deed ≠ .exchanged (.take peer wanted) conditions effect) :
    next.kept peer = desk.kept peer := by
  obtain ⟨link, has, dead⟩ := h.mem_departed.mp left
  obtain ⟨own, has', changes⟩ := step.changes has
  have pending : own.pending = link.pending := by
    cases changes with
    | kept => rfl
    | received bytes => exact link.receive_pending bytes
    | sent sends => cases sends <;> rfl
    | took => exact absurd rfl (untaken _ _ _)
    | closed => rfl
  simp [kept, has, has', pending]

theorem payloads_kept (step : Step desk deed next) (tag : UInt32)
    (unasked : ∀ conditions effect,
      deed ≠ .exchanged (.take peer (.data tag)) conditions effect) :
    payloads (.data tag) (next.kept peer) = payloads (.data tag) (desk.kept peer) := by
  obtain ⟨link, has, dead⟩ := h.mem_departed.mp left
  obtain ⟨own, has', changes⟩ := step.changes has
  suffices payloads (.data tag) own.pending = payloads (.data tag) link.pending by
    simpa [kept, has, has'] using this
  cases changes with
  | kept => rfl
  | received bytes => rw [link.receive_pending]
  | sent sends => cases sends <;> rfl
  | @took wanted conditions effect own takes =>
    have other : wanted ≠ .data tag := by
      rintro rfl
      exact unasked _ _ rfl
    cases found : Link.removeFirst? wanted.accepts link.pending with
    | some result =>
      rw [Link.take_kept found] at takes
      rw [← (Prod.mk.inj takes).2]
      exact payloads_removeOther other found
    | none =>
      rw [Link.take_dead found dead] at takes
      rw [← (Prod.mk.inj takes).2]
  | closed => rfl

theorem onward_exchange {call : Call} {exchange : Exchange}
    {rest : exchange.Answer → Conduct call.Answer} {conditions : Communicator.Conditions}
    {effect : Communicator.Effect exchange.Answer} {answer : exchange.Answer}
    (current : desk.current = some ⟨call, .ask exchange rest⟩)
    (meets : desk.communicator.exchange? conditions exchange = some effect)
    (answered : effect.answer = some answer)
    (faithful : Faithful peer (desk.kept peer) call (.ask exchange rest))
    (step : Step desk (.exchanged exchange conditions effect)
      ⟨effect.communicator, some ⟨call, rest answer⟩⟩) :
    Onward peer desk (.exchanged exchange conditions effect)
      ⟨effect.communicator, some ⟨call, rest answer⟩⟩ := by
  obtain ⟨link, has, dead⟩ := h.mem_departed.mp left
  have asked := (h.asks _ _ current).1
  have before : ∀ tag, held peer tag desk.current = [] := fun tag => by rw [current, held_ask]
  -- A call that is not to receive such a message leaves alone those that there are.
  have elsewhere : ∀ tag, call ≠ .recv peer tag →
      coming peer tag ⟨effect.communicator, some ⟨call, rest answer⟩⟩ = desk.coming peer tag := by
    intro tag notRecv
    refine coming_same (before tag) (held_other notRecv) (payloads_kept h left step tag ?_)
    rintro _ _ ⟨⟩
    exact notRecv (Call.asks_data asked)
  cases faithful with
  | sending tag payload asks =>
    rw [deliver_eq] at asks
    cases asks
    obtain rfl := Option.some.inj (meets.symm.trans (closed_send h.nodup has dead _ _))
    cases answered
    refine ⟨?_, nofun, fun tag' => elsewhere tag' (by simp)⟩
    rintro _ _ ⟨⟩
    exact .unsent tag payload
  | receiving tag asks =>
    rw [awaitPayload_eq] at asks
    cases asks
    have pending : desk.kept peer = link.pending := by simp [kept, has]
    rcases closed_take_cases h.nodup has dead meets with
      ⟨found, others, taken, rfl⟩ | ⟨refused, rfl⟩
    · cases answered
      obtain ⟨payload, rfl, first⟩ := payloads_removeFirst taken
      refine ⟨?_, nofun, fun tag' => ?_⟩
      · rintro _ _ ⟨⟩
        exact .found tag payload
      · by_cases he : tag = tag'
        · subst he
          exact coming_taken has (before tag) first
        · exact elsewhere tag' (by simpa using he)
    · cases answered
      have used : payloads (.data tag) (desk.kept peer) = [] := by
        rw [pending]
        exact payloads_refused refused
      refine ⟨?_, nofun, fun tag' => coming_same (before tag') rfl rfl⟩
      rintro _ _ ⟨⟩
      exact .missing tag used
  | other notSend notRecv =>
    refine ⟨?_, nofun, fun tag => elsewhere tag (notRecv tag)⟩
    rintro _ _ ⟨⟩
    exact .other notSend notRecv

omit h left in
theorem onward_answer {c : Communicator} {call : Call} {answer : call.Answer}
    (faithful : Faithful peer (kept peer ⟨c, none⟩) call (.done answer)) :
    Onward peer ⟨c, some ⟨call, .done answer⟩⟩ (.answered call answer) ⟨c, none⟩ := by
  refine ⟨nofun, ?_, fun tag => ?_⟩
  · rintro tag payload _ ⟨⟩
    cases faithful with
    | sending _ _ asks => cases asks.trans (deliver_eq _ _)
    | unsent => rfl
    | other notSend => exact absurd rfl (notSend tag payload)
  · by_cases receiving : call = .recv peer tag
    · subst receiving
      rw [receipt_same]
      cases faithful with
      | receiving _ asks => cases asks.trans (awaitPayload_eq _ _)
      | found _ payload =>
        have now : coming peer tag ⟨c, some ⟨.recv peer tag, .done (.ok payload)⟩⟩ = _ :=
          coming_found rfl
        rw [now]
        exact ⟨rfl, rfl⟩
      | missing _ used =>
        have none_now : coming peer tag
            ⟨c, some ⟨.recv peer tag, .done (.error (.peerDeparted peer))⟩⟩ = [] := used
        rw [none_now]
        exact ⟨rfl, used⟩
      | other _ notRecv => exact absurd rfl (notRecv tag)
    · rw [receipt_other receiving]
      exact coming_same (held_other receiving) rfl rfl

/-- Every deed is so, seen from a member that has left. -/
theorem onward (faithful : ∀ call rest, desk.current = some ⟨call, rest⟩ →
      Faithful peer (desk.kept peer) call rest) (step : Step desk deed next) :
    Onward peer desk deed next := by
  obtain ⟨link, has, dead⟩ := h.mem_departed.mp left
  have untaken := kept_untaken h left step
  have stepped := step
  cases step with
  | receive =>
    have kept := untaken fun _ _ _ => Deed.noConfusion
    exact ⟨fun call rest current => kept ▸ faithful call rest current, nofun,
      fun tag => by simp only [Deed.receipt?, coming, kept]⟩
  | start c call =>
    refine ⟨?_, nofun, fun tag => ?_⟩
    · rintro _ _ ⟨⟩
      exact faithful_conduct h.spoke has _ call
    · exact coming_same rfl (held_conduct h.spoke has tag call) rfl
  | exchange meets answered =>
    exact onward_exchange h left rfl meets answered (faithful _ _ rfl) stepped
  | @wait c call exchange rest conditions effect meets waiting =>
    -- Nobody waits on a closed link, so what the call has read came on another one.
    have kept := untaken (by
      rintro wanted _ _ ⟨⟩
      rcases closed_take_cases h.nodup has dead meets with ⟨_, _, -, rfl⟩ | ⟨-, rfl⟩ <;>
        cases waiting)
    exact ⟨fun call rest current => kept ▸ faithful call rest current, nofun,
      fun tag => by simp only [Deed.receipt?, coming, kept]⟩
  | answer c call answer => exact onward_answer (faithful call _ rfl)

end Left

end Desk
end FaultDrill
