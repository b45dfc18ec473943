import FaultDrill.Proofs.Contract
import FaultDrill.Proofs.Network
import FaultDrill.Proofs.Order
set_option autoImplicit false

namespace FaultDrill

/-- A communicator, and what is left of the call that it carries out. -/
structure Desk where
  communicator : Communicator
  current : Option ((call : Call) × Conduct call.Answer)

namespace Desk

def idle (c : Communicator) : Desk := ⟨c, none⟩

def link? (desk : Desk) (peer : Rank) : Option Link := desk.communicator.topology.link? peer

def departed (desk : Desk) : List Rank := desk.communicator.topology.departedPeers

inductive Deed where
  | received (peer : Rank) (bytes : List UInt8)
  | started (call : Call)
  /-- An exchange was answered, or has read what there was and waits on. -/
  | exchanged (exchange : Exchange) (conditions : Communicator.Conditions)
      (effect : Communicator.Effect exchange.Answer)
  | answered (call : Call) (answer : call.Answer)

def Deed.Uses (peer : Rank) : Deed → Prop
  | exchanged (.send target _) _ _ => target = peer
  | exchanged (.take source _) _ _ => source = peer
  | exchanged .hangUp _ _ => True
  | _ => False

def Deed.heard (peer : Rank) : Deed → List UInt8
  | received source bytes => if source = peer then bytes else []
  | _ => []

inductive Step : Desk → Deed → Desk → Prop where
  | receive {c : Communicator} {current : Option ((call : Call) × Conduct call.Answer)}
      {peer : Rank} {link : Link} (has : c.topology.link? peer = some link) (bytes : List UInt8) :
      Step ⟨c, current⟩ (.received peer bytes) ⟨c.setLink (link.receive bytes), current⟩
  | start (c : Communicator) (call : Call) :
      Step ⟨c, none⟩ (.started call) ⟨c, some ⟨call, c.conduct call⟩⟩
  | exchange {c : Communicator} {call : Call} {exchange : Exchange}
      {rest : exchange.Answer → Conduct call.Answer} {conditions : Communicator.Conditions}
      {effect : Communicator.Effect exchange.Answer} {answer : exchange.Answer}
      (meets : c.exchange? conditions exchange = some effect)
      (answered : effect.answer = some answer) :
      Step ⟨c, some ⟨call, .ask exchange rest⟩⟩ (.exchanged exchange conditions effect)
        ⟨effect.communicator, some ⟨call, rest answer⟩⟩
  | wait {c : Communicator} {call : Call} {exchange : Exchange}
      {rest : exchange.Answer → Conduct call.Answer} {conditions : Communicator.Conditions}
      {effect : Communicator.Effect exchange.Answer}
      (meets : c.exchange? conditions exchange = some effect) (waiting : effect.answer = none) :
      Step ⟨c, some ⟨call, .ask exchange rest⟩⟩ (.exchanged exchange conditions effect)
        ⟨effect.communicator, some ⟨call, .ask exchange rest⟩⟩
  | answer (c : Communicator) (call : Call) (answer : call.Answer) :
      Step ⟨c, some ⟨call, .done answer⟩⟩ (.answered call answer) ⟨c, none⟩

inductive Runs : Desk → List Deed → Desk → Prop where
  | nil (desk : Desk) : Runs desk [] desk
  | cons {first middle last : Desk} {deed : Deed} {deeds : List Deed}
      (step : Step first deed middle) (rest : Runs middle deeds last) :
      Runs first (deed :: deeds) last

theorem Runs.preserves {P : Desk → Prop} {first last : Desk} {deeds : List Deed}
    (run : Runs first deeds last)
    (step : ∀ {desk deed next}, Step desk deed next → P desk → P next) (start : P first) :
    P last := by
  induction run with
  | nil => exact start
  | cons here rest ih => exact ih (step here start)

/-- What an exchange comes to, case by case. -/
inductive Meets (c : Communicator) (conditions : Communicator.Conditions) :
    (exchange : Exchange) → Communicator.Effect exchange.Answer → Prop where
  | send {peer : Rank} {frame : Frame} {link own : Link} {sent : Sent}
      {carried : Option (List UInt8)} (has : c.topology.link? peer = some link)
      (sends : link.Sends frame (conditions.reception peer) sent own carried) :
      Meets c conditions (.send peer frame)
        ⟨some sent, c.setLink own, carried.map fun bytes => (peer, bytes)⟩
  | take {peer : Rank} {wanted : Wanted} {link own : Link} {taken : Option Taken}
      (has : c.topology.link? peer = some link)
      (takes : link.take wanted.accepts (conditions.ended peer) conditions.breakdown =
        (taken, own)) :
      Meets c conditions (.take peer wanted) ⟨taken, c.setLink own, none⟩
  | hangUp : Meets c conditions .hangUp ⟨some (), c.hangUp, none⟩
  | note (entry : LogEntry) : Meets c conditions (.note entry) ⟨some (), c, none⟩
  | sendNowhere {peer : Rank} {frame : Frame} (hasNot : c.topology.link? peer = none) :
      Meets c conditions (.send peer frame) ⟨some .gone, c, none⟩
  | takeNowhere {peer : Rank} {wanted : Wanted} (hasNot : c.topology.link? peer = none) :
      Meets c conditions (.take peer wanted) ⟨some .gone, c, none⟩

theorem exchange_meets {c : Communicator} {conditions : Communicator.Conditions}
    {exchange : Exchange} {effect : Communicator.Effect exchange.Answer}
    (h : c.exchange? conditions exchange = some effect) : Meets c conditions exchange effect := by
  cases exchange with
  | send peer frame =>
    cases has : c.topology.link? peer with
    | none =>
      simp only [Communicator.exchange?, has] at h
      cases h
      exact .sendNowhere has
    | some link =>
      have sends := link.send_sends frame (conditions.reception peer)
      simp only [Communicator.exchange?, has] at h
      generalize link.send frame (conditions.reception peer) = result at h sends
      obtain ⟨sent, own, bytes⟩ := result
      cases sent with
      | delivered =>
        cases h
        exact @Meets.send c conditions peer frame link own _ (some bytes) has sends
      | gone | failed =>
        cases h
        exact @Meets.send c conditions peer frame link own _ none has sends
  | take peer wanted =>
    cases has : c.topology.link? peer with
    | none =>
      simp only [Communicator.exchange?, has] at h
      cases h
      exact .takeNowhere has
    | some link =>
      simp only [Communicator.exchange?, has] at h
      split at h
      · cases h
      · cases h
        exact .take has rfl
  | hangUp =>
    cases h
    exact .hangUp
  | note entry =>
    cases h
    exact .note entry

/-- What a deed makes of one link. -/
inductive Deed.Changes (peer : Rank) (link : Link) : Deed → Link → Prop where
  | kept {deed : Deed} (unused : ¬deed.Uses peer) (unheard : deed.heard peer = []) :
      Changes peer link deed link
  | received (bytes : List UInt8) : Changes peer link (.received peer bytes) (link.receive bytes)
  | sent {frame : Frame} {conditions : Communicator.Conditions} {effect : Communicator.Effect Sent}
      {sent : Sent} {own : Link} {carried : Option (List UInt8)}
      (sends : link.Sends frame (conditions.reception peer) sent own carried)
      (answer : effect.answer = some sent) :
      Changes peer link (.exchanged (.send peer frame) conditions effect) own
  | took {wanted : Wanted} {conditions : Communicator.Conditions}
      {effect : Communicator.Effect Taken} {own : Link}
      (takes : link.take wanted.accepts (conditions.ended peer) conditions.breakdown =
        (effect.answer, own)) :
      Changes peer link (.exchanged (.take peer wanted) conditions effect) own
  | closed {conditions : Communicator.Conditions} {effect : Communicator.Effect Unit} :
      Changes peer link (.exchanged .hangUp conditions effect) link.close

theorem link_setLink_other {c : Communicator} {peer other : Rank} {link own : Link}
    (has : c.topology.link? peer = some link) (same : own.peer = other) (ne : other ≠ peer) :
    (c.setLink own).topology.link? peer = some link := by
  rw [Communicator.setLink, Topology.link_setLink, if_neg (by rw [same]; exact ne.symm), has]

theorem link_setLink_same {c : Communicator} {peer : Rank} {link own : Link}
    (has : c.topology.link? peer = some link) (same : own.peer = peer) :
    (c.setLink own).topology.link? peer = some own := by
  rw [Communicator.setLink, Topology.link_setLink, if_pos same.symm, has]
  rfl

theorem Meets.changes {c : Communicator} {conditions : Communicator.Conditions}
    {exchange : Exchange} {effect : Communicator.Effect exchange.Answer}
    (h : Meets c conditions exchange effect) {peer : Rank} {link : Link}
    (has : c.topology.link? peer = some link) :
    ∃ own, effect.communicator.topology.link? peer = some own ∧
      (Deed.exchanged exchange conditions effect).Changes peer link own := by
  cases h with
  | @send target frame old own sent carried at_target sends =>
    have same := sends.peer_eq.trans (Topology.peer_of_link at_target)
    by_cases he : target = peer
    · subst he
      obtain rfl := Option.some.inj (has.symm.trans at_target)
      exact ⟨own, link_setLink_same has same, .sent sends rfl⟩
    · exact ⟨link, link_setLink_other has same he, .kept he rfl⟩
  | @take source wanted old own taken at_source takes =>
    have same : own.peer = source := by
      have kept := Link.take_peer wanted.accepts (conditions.ended source) conditions.breakdown old
      rw [takes] at kept
      exact kept.trans (Topology.peer_of_link at_source)
    by_cases he : source = peer
    · subst he
      obtain rfl := Option.some.inj (has.symm.trans at_source)
      exact ⟨own, link_setLink_same has same, .took takes⟩
    · exact ⟨link, link_setLink_other has same he, .kept he rfl⟩
  | hangUp =>
    refine ⟨link.close, ?_, .closed⟩
    change (c.topology.mapLinks Link.close).link? peer = some link.close
    rw [Topology.link_mapLinks _ Link.close fun _ => rfl, has]
    rfl
  | note => exact ⟨link, has, .kept id rfl⟩
  | @sendNowhere target frame hasNot =>
    refine ⟨link, has, .kept ?_ rfl⟩
    rintro rfl
    cases has.symm.trans hasNot
  | @takeNowhere source wanted hasNot =>
    refine ⟨link, has, .kept ?_ rfl⟩
    rintro rfl
    cases has.symm.trans hasNot

theorem Deed.Changes.order {deed : Deed} {peer : Rank} {link own : Link}
    (h : deed.Changes peer link own) (more : List UInt8) :
    (own.receive more).standing.Sublist (link.receive (deed.heard peer ++ more)).standing := by
  cases h with
  | kept _ unheard => exact unheard.symm ▸ .refl _
  | received bytes => simp [Link.receive_receive, Deed.heard]
  | sent sends => exact sends.dwindles.receive more
  | @took wanted conditions effect own takes =>
    have dwindles :=
      Link.dwindles_take wanted.accepts (conditions.ended peer) conditions.breakdown link
    rw [takes] at dwindles
    exact dwindles.receive more
  | closed => exact (Link.dwindles_close link).receive more

theorem Step.changes {desk next : Desk} {deed : Deed} (step : Step desk deed next) {peer : Rank}
    {link : Link} (has : desk.link? peer = some link) :
    ∃ own, next.link? peer = some own ∧ deed.Changes peer link own := by
  cases step with
  | @receive c current target old at_target bytes =>
    have same := (old.receive_peer bytes).trans (Topology.peer_of_link at_target)
    by_cases he : target = peer
    · subst he
      obtain rfl := Option.some.inj (has.symm.trans at_target)
      exact ⟨_, link_setLink_same has same, .received bytes⟩
    · exact ⟨link, link_setLink_other has same he, .kept id (if_neg he)⟩
  | start => exact ⟨link, has, .kept id rfl⟩
  | exchange meets => exact (exchange_meets meets).changes has
  | wait meets => exact (exchange_meets meets).changes has
  | answer => exact ⟨link, has, .kept id rfl⟩

/-- What stands at an end has arrived there in that order. -/
theorem Runs.order {first last : Desk} {deeds : List Deed} (run : Runs first deeds last)
    {peer : Rank} {link : Link} (has : first.link? peer = some link) :
    ∃ own, last.link? peer = some own ∧
      own.standing.Sublist (link.receive (deeds.flatMap (Deed.heard peer))).standing := by
  induction run generalizing link with
  | nil => exact ⟨link, has, link.standing_grows []⟩
  | cons step _ ih =>
    obtain ⟨middle, has', changes⟩ := step.changes has
    obtain ⟨own, there, later⟩ := ih has'
    exact ⟨own, there, later.trans (changes.order _)⟩

end Desk
end FaultDrill
