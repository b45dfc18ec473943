import FaultDrill.Proofs.Traffic
set_option autoImplicit false

namespace FaultDrill

def Event.reply? : Event → Option Reply
  | .finished call answer => some ⟨call, answer⟩
  | _ => none

namespace Network

variable {α : Type}

theorem Exchanged.isSound {net net' : Network α} {who : Rank} {choice : Choice}
    {exchange : Exchange} {answer : exchange.Answer}
    (h : net.Exchanged who choice exchange (some answer) net') (sound : choice.breakdown = none) :
    Answered.IsSound exchange answer := by
  have hfits := h.fits
  generalize ha : some answer = answered at h
  cases h with
  | take =>
    cases answer with
    | frame => exact hfits
    | gone | failed => trivial
  | hangUp | note => trivial
  | sendNowhere | takeNowhere =>
    cases ha
    trivial
  | send has sends =>
    cases ha
    cases sends with
    | dead | lost => trivial
    | oversized _ large => exact ⟨_, large⟩
    | delivered _ fits => exact ⟨_, fits⟩
    | @broken kind _ refused other =>
      -- A write that is refused without a breakdown was made to somebody who has left.
      obtain rfl : kind = .brokenPipe := by
        simp only [reception, sound] at refused
        split at refused <;> cases refused
        rfl
      cases other

theorem Fidelity.isOpen_closed {size : UInt32} {steps : List (Step α)} {net net' : Network α}
    (h : Fidelity size steps net) {who peer : Rank} {choice : Choice} {exchange : Exchange}
    {answer : exchange.Answer}
    (comes : net.exchange? who choice exchange = some (some answer, net'))
    (closes : Answered.closes peer ⟨exchange, answer⟩ = true) : net'.isOpen who peer = false := by
  have hx := h.exchanged comes
  generalize ha : some answer = answered at hx
  cases hx with
  | note => cases closes
  | hangUp alike ends =>
    rw [isOpen, ends, end_hangUp, if_pos rfl]
    cases net.end? who peer <;> rfl
  | @send target frame link own sent carried _ has sends moves =>
    cases ha
    cases sent with
    | delivered | failed => cases closes
    | gone =>
      obtain rfl : target = peer := eq_of_beq closes
      rw [moves.isOpen_own]
      exact sends.gone
  | @take source wanted link own arrived taken _ has holds takes progress moves =>
    subst ha
    cases answer with
    | frame | failed => cases closes
    | gone =>
      obtain rfl : source = peer := eq_of_beq closes
      rw [moves.isOpen_own]
      exact takes.gone
  | @sendNowhere target frame _ hasNot alike ends =>
    cases ha
    obtain rfl : target = peer := eq_of_beq closes
    rw [isOpen, ends, hasNot]
    rfl
  | @takeNowhere source wanted _ hasNot alike ends =>
    cases ha
    obtain rfl : source = peer := eq_of_beq closes
    rw [isOpen, ends, hasNot]
    rfl

def replies (steps : List (Step α)) (who : Rank) : List Reply :=
  (seenOf steps who).filterMap Event.reply?

def InTraffic (net : Network α) (who peer : Rank) (traffic : Traffic) : Prop :=
  match net.activity? who with
  | some (.calling call rest _) =>
    rest.Keeps (Traffic.contract peer call) (Traffic.ends peer call) (some traffic)
  | _ => traffic = .empty

/-- What a participant has sent to a peer and taken from it is what its calls tell. -/
structure Accounts (steps : List (Step α)) (net : Network α) (who peer : Rank)
    (traffic : Traffic) : Prop where
  current : net.InTraffic who peer traffic
  posted : (sent steps who peer).filter Frame.carries =
    (replies steps who).flatMap (Reply.posted peer) ++ traffic.posted
  fetched : (taken steps who peer).filter Frame.carries =
    (replies steps who).flatMap (Reply.fetched peer) ++ traffic.fetched

theorem inTraffic_calling {net : Network α} {who : Rank} {call : Call}
    {rest : Conduct call.Answer} {next : call.Answer → Program Action.interface α}
    (h : net.activity? who = some (.calling call rest next)) (peer : Rank) (traffic : Traffic) :
    net.InTraffic who peer traffic ↔
      rest.Keeps (Traffic.contract peer call) (Traffic.ends peer call) (some traffic) := by
  rw [InTraffic, h]

theorem inTraffic_running {net : Network α} {who : Rank} {rest : Program Action.interface α}
    (h : net.activity? who = some (.running rest)) (peer : Rank) (traffic : Traffic) :
    net.InTraffic who peer traffic ↔ traffic = .empty := by
  rw [InTraffic, h]

theorem replies_next (steps : List (Step α)) {step : Step α} {who : Rank}
    (mover : step.move.who = who) :
    replies (steps ++ [step]) who = replies steps who ++ step.seen.filterMap Event.reply? := by
  rw [replies, seenOf_next, if_pos mover, List.filterMap_append]
  rfl

theorem noteOf_replies (exchange : Exchange) :
    (noteOf exchange).filterMap Event.reply? = [] := by
  cases exchange <;> rfl

namespace Accounts

variable {size : UInt32} {steps : List (Step α)} {step : Step α} {net net' : Network α}
  {who peer : Rank} {traffic traffic' : Traffic}

theorem own (h : Accounts steps net who peer traffic) (mover : step.move.who = who)
    (current : net'.InTraffic who peer traffic')
    (posted : traffic.posted ++ ((step.answered?.bind (Step.sentTo? peer)).toList.filter
      Frame.carries) = (step.seen.filterMap Event.reply?).flatMap (Reply.posted peer) ++
        traffic'.posted)
    (fetched : traffic.fetched ++ ((step.answered?.bind (Step.takenFrom? peer)).toList.filter
      Frame.carries) = (step.seen.filterMap Event.reply?).flatMap (Reply.fetched peer) ++
        traffic'.fetched) :
    Accounts (steps ++ [step]) net' who peer traffic' := by
  refine ⟨current, ?_, ?_⟩
  · rw [sent_next, if_pos mover, List.filter_append, h.posted, replies_next steps mover,
      List.flatMap_append, List.append_assoc, List.append_assoc, posted]
  · rw [taken_next, if_pos mover, List.filter_append, h.fetched, replies_next steps mover,
      List.flatMap_append, List.append_assoc, List.append_assoc, fetched]

theorem other (h : Accounts steps net who peer traffic) (mover : step.move.who ≠ who)
    (doing : net'.activity? who = net.activity? who) :
    Accounts (steps ++ [step]) net' who peer traffic := by
  have hsame : sent (steps ++ [step]) who peer = _ ∧ _ := history_other mover peer
  have hreplies : replies (steps ++ [step]) who = replies steps who := by
    rw [replies, seenOf_other mover, replies]
  refine ⟨?_, ?_, ?_⟩
  · rw [InTraffic, doing]
    exact h.current
  · rw [hsame.1, hreplies]
    exact h.posted
  · rw [hsame.2, hreplies]
    exact h.fetched

theorem next (h : Accounts steps net who peer traffic) (fidelity : Fidelity size steps net)
    {move : Move} {seen : List Event} (mover : move.who = who)
    (hm : net.Moved move net' seen (Step.mk net move net' seen).answered?)
    (sound : move.IsSound) (hpeer : peer ∈ who.peers size)
    (opened : net'.isOpen who peer = true) :
    ∃ traffic', Accounts (steps ++ [⟨net, move, net', seen⟩]) net' who peer traffic' := by
  subst mover
  generalize hans : (Step.mk net move net' seen).answered? = answered at hm
  cases hm with
  | leave =>
    rw [isOpen_setActivity, isOpen_hangUp, Move.who, if_pos rfl] at opened
    cases opened
  | crash =>
    rw [Network.crash, isOpen_setActivity, isOpen_hangUp, Move.who, if_pos rfl] at opened
    cases opened
  | @proceed who choice _ _ _ proceeds =>
    rw [Move.who] at h hpeer opened ⊢
    cases proceeds with
    | @start call next c doing has =>
      obtain rfl := (inTraffic_running doing peer traffic).mp h.current
      refine ⟨.empty, h.own rfl ?_ (by rw [hans]; rfl) (by rw [hans]; rfl)⟩
      rw [inTraffic_calling (activity_setActivity_self doing _)]
      rw [isOpen_setActivity] at opened
      obtain ⟨link, hl, live⟩ := end_of_isOpen opened
      rw [end_eq, has] at hl
      have hshape := fidelity.star.shape has
      have hpeers : c.topology.peers = who.peers size := congrArg (fun shape => shape.2.2.1) hshape
      have hspoke : c.topology.isSpoke = !who.isCoordinator :=
        congrArg (fun shape => shape.2.2.2) hshape
      refine c.conduct_traffic call ?_ (Topology.mem_livePeers hl live) ?_
      · exact c.topology.livePeers_sublist.nodup (hpeers ▸ Rank.nodup_peers size who)
      · rw [hspoke, Rank.isCoordinator_peer hpeer]
    | @act action next answer event doing comes =>
      obtain rfl := (inTraffic_running doing peer traffic).mp h.current
      have hevent : event.reply? = none := by cases action <;> cases comes <;> rfl
      refine ⟨.empty, h.own rfl ?_ ?_ ?_⟩
      · exact (inTraffic_running (activity_setActivity_self doing _) _ _).mpr rfl
      · rw [hans]
        simp [hevent]
      · rw [hans]
        simp [hevent]
    | @finish call answer next doing =>
      have hends := (inTraffic_calling doing peer traffic).mp h.current
      obtain rfl := hends traffic rfl
      refine ⟨.empty, h.own rfl ?_ ?_ ?_⟩
      · exact (inTraffic_running (activity_setActivity_self doing _) _ _).mpr rfl
      · rw [hans]
        simp [Event.reply?, Traffic.empty]
      · rw [hans]
        simp [Event.reply?, Traffic.empty]
    | @wait call exchange rest next _ doing comes =>
      have same := congrFun (fidelity.exchanged comes).alike.activity who
      refine ⟨traffic, h.own rfl ?_ ?_ ?_⟩
      · rw [InTraffic, same]
        exact h.current
      · rw [hans]
        simp
      · rw [hans]
        simp
    | @exchange call exchange rest next answer after doing comes =>
      have hx := fidelity.exchanged comes
      have doing' : after.activity? who = some _ := (congrFun hx.alike.activity who).trans doing
      rw [isOpen_setActivity] at opened
      -- The end is still open afterwards, so this exchange has not closed it.
      have hopen : Answered.closes peer ⟨exchange, answer⟩ = false := by
        refine Bool.eq_false_iff.mpr fun closes => ?_
        rw [fidelity.isOpen_closed comes closes] at opened
        cases opened
      obtain ⟨-, follows⟩ := (inTraffic_calling doing peer traffic).mp h.current
      refine ⟨traffic.next peer ⟨exchange, answer⟩, h.own rfl ?_ ?_ ?_⟩
      · rw [inTraffic_calling (activity_setActivity_self doing' _)]
        refine follows answer _ ⟨hx.isSound sound, ?_⟩
        simp [Traffic.after, hopen]
      · rw [hans, noteOf_replies]
        rfl
      · rw [hans, noteOf_replies]
        rfl

end Accounts

theorem Execution.accounts {size : UInt32} {program : Rank → Program Action.interface α}
    {steps : List (Step α)} {start net : Network α} (begins : Bootstrapped size program start)
    (run : Execution start steps net) (sound : ∀ step ∈ steps, step.move.IsSound) {who peer : Rank}
    (hw : who ∈ Rank.everybody size) (hpeer : peer ∈ who.peers size)
    (opened : net.isOpen who peer = true) : ∃ traffic, Accounts steps net who peer traffic := by
  induction run with
  | start =>
    have doing := begins.starts.activity who
    rw [if_pos hw] at doing
    exact ⟨.empty, (inTraffic_running doing peer _).mpr rfl, rfl, rfl⟩
  | @next steps net net' move seen earlier moves ih =>
    have fidelity := earlier.fidelity begins
    have hm := moved moves
    have sound' : ∀ step ∈ steps, step.move.IsSound := fun step hs =>
      sound step (List.mem_append_left _ hs)
    by_cases mover : move.who = who
    · have before : net.isOpen who peer = true := by
        subst mover
        exact fidelity.isOpen_own hm opened
      obtain ⟨traffic, h⟩ := ih sound' before
      exact h.next fidelity mover hm (sound _ (List.mem_append_right _ List.mem_cons_self)) hpeer
        opened
    · have hf := fidelity.frame hm (Ne.symm mover)
      obtain ⟨traffic, h⟩ := ih sound' ((hf.2 peer).symm.trans opened)
      exact ⟨traffic, h.other mover hf.1⟩

def answers (steps : List (Step α)) (net : Network α) (who : Rank) : List Reply :=
  replies steps who ++ match net.activity? who with
    | some (.calling call (.done answer) _) => [⟨call, answer⟩]
    | _ => []

def broadcasting (net : Network α) (who : Rank) : List (List UInt8) :=
  match net.activity? who with
  | some (.calling (.broadcast _ (some payload)) (.ask ..) _) => [payload]
  | _ => []

/-- What a participant has taken from a peer is told by what its calls were answered. So is what
it has sent, but for a broadcast that is still going out. -/
structure Balanced (steps : List (Step α)) (net : Network α) (who peer : Rank) : Prop where
  fetched : (taken steps who peer).filter Frame.carries =
    (answers steps net who).flatMap (Reply.fetched peer)
  posted : ∃ underway, underway <+: net.broadcasting who ∧
    (sent steps who peer).filter Frame.carries =
      (answers steps net who).flatMap (Reply.posted peer) ++ underway.map .broadcast

namespace Accounts

variable {steps : List (Step α)} {net : Network α} {who peer : Rank} {traffic : Traffic}

theorem balanced_idle (h : Accounts steps net who peer traffic) (idle : traffic = .empty)
    (told : answers steps net who = replies steps who) : Balanced steps net who peer := by
  subst idle
  refine ⟨?_, [], List.nil_prefix, ?_⟩
  · rw [told, h.fetched]
    exact List.append_nil _
  · rw [told, h.posted]
    rfl

theorem balanced (h : Accounts steps net who peer traffic) : Balanced steps net who peer := by
  have current := h.current
  cases doing : net.activity? who with
  | none =>
    simp only [InTraffic, doing] at current
    exact h.balanced_idle current (by rw [answers, doing]; exact List.append_nil _)
  | some activity =>
    cases activity with
    | running | left =>
      simp only [InTraffic, doing] at current
      exact h.balanced_idle current (by rw [answers, doing]; exact List.append_nil _)
    | calling call rest next =>
      rw [inTraffic_calling doing] at current
      cases rest with
      | done answer =>
        obtain rfl := current traffic rfl
        have told : answers steps net who = replies steps who ++ [⟨call, answer⟩] := by
          rw [answers, doing]
        refine ⟨?_, [], List.nil_prefix, ?_⟩
        · rw [told, h.fetched, List.flatMap_append, List.flatMap_singleton]
        · rw [told, h.posted, List.flatMap_append, List.flatMap_singleton, List.map_nil,
            List.append_nil]
      | ask exchange rest =>
        obtain ⟨hfetched, hposted⟩ := current.1 traffic rfl
        have told : answers steps net who = replies steps who := by
          rw [answers, doing]
          exact List.append_nil _
        refine ⟨?_, ?_⟩
        · rw [told, h.fetched, hfetched, List.append_nil]
        · rw [told, h.posted]
          rcases hposted with hposted | ⟨root, payload, rfl, hposted⟩
          · exact ⟨[], List.nil_prefix, by rw [hposted]; rfl⟩
          · have going : net.broadcasting who = [payload] := by rw [broadcasting, doing]
            exact ⟨[payload], going ▸ List.prefix_rfl, by rw [hposted]; rfl⟩

end Accounts

end Network
end FaultDrill
