import FaultDrill.Proofs.Ledger
set_option autoImplicit false

/-!
# Losses

What a participant that leaves has sent is either taken at the other end or lost there, and it is
lost only where a write was the first to find the participant gone: that closes the end without
reading what had arrived. An end that is closed by reading has read everything.
-/
namespace FaultDrill

def Arrival.frame? : Arrival → Option Frame
  | .frame whole => some whole
  | .fault _ => none

def Link.unread (link : Link) : List Frame := link.inbox.arrivals.filterMap Arrival.frame?

theorem Link.Holds.unread {link : Link} {arrived : List Frame} (h : link.Holds arrived) :
    link.unread = arrived := by
  rw [Link.unread, h, List.filterMap_map]
  exact List.filterMap_some

namespace Network

variable {α : Type} {size : UInt32} {steps : List (Step α)} {step : Step α} {net net' : Network α}
  {who peer : Rank} {link link' : Link}

/-- What a step gives up unread: a write at an open end has found the peer gone. -/
def Step.dropped (peer : Rank) (step : Step α) : List Frame :=
  match step.answered?, step.before.end? step.move.who peer with
  | some ⟨.send target _, .gone⟩, some link =>
    if target = peer ∧ link.live = true then link.unread else []
  | _, _ => []

/-- What had arrived at a participant's end from a peer when a write found the peer gone. -/
def dropped (steps : List (Step α)) (who peer : Rank) : List Frame :=
  (steps.filter fun step => step.move.who == who).flatMap (Step.dropped peer)

theorem dropped_next (steps : List (Step α)) (step : Step α) (who peer : Rank) :
    dropped (steps ++ [step]) who peer = dropped steps who peer ++
      if step.move.who = who then step.dropped peer else [] := by
  rw [dropped, List.filter_append, List.flatMap_append]
  congr 1
  by_cases h : step.move.who = who <;> simp [h]

theorem Step.dropped_eq (peer : Rank) (step : Step α) : step.dropped peer = [] ∨
    ∃ frame, step.answered? = some ⟨.send peer frame, .gone⟩ := by
  unfold Step.dropped
  split
  · rename_i target frame link answered has
    split
    · rename_i h
      exact .inr ⟨frame, h.1 ▸ answered⟩
    · exact .inl rfl
  · exact .inl rfl

theorem Step.dropped_closed (has : step.before.end? step.move.who peer = some link)
    (shut : link.live = false) : step.dropped peer = [] := by
  unfold Step.dropped
  rw [has]
  split
  · rename_i heq
    cases heq
    simp [shut]
  · rfl

theorem Step.dropped_open {frame : Frame}
    (answered : step.answered? = some ⟨.send peer frame, .gone⟩)
    (has : step.before.end? step.move.who peer = some link) (live : link.live = true) :
    step.dropped peer = link.unread := by
  unfold Step.dropped
  rw [answered, has]
  exact if_pos ⟨rfl, live⟩

section Closed

variable {move : Move} {seen : List Event} {answered : Option Answered}

theorem Fidelity.isOpen_closed_next (h : Fidelity size steps net)
    (hm : net.Moved move net' seen answered) (closed : net.isOpen who peer = false) :
    net'.isOpen who peer = false := by
  by_cases mover : move.who = who
  · subst mover
    apply Bool.eq_false_iff.mpr
    intro opened
    rw [h.isOpen_own hm opened] at closed
    cases closed
  · rw [(h.frame hm (Ne.symm mover)).2 peer, closed]

theorem map_receive_closed (closed : net.isOpen who peer = false) (bytes : List UInt8) :
    (net.end? who peer).map (Link.receive bytes) = net.end? who peer := by
  cases hl : net.end? who peer with
  | none => rfl
  | some link => rw [Option.map_some, Link.receive_dead (isOpen_of_end hl ▸ closed)]

theorem Moves.end_closed {target : Rank} {own : Link} {carried : Option (List UInt8)}
    {mover : Rank} (moves : net.Moves mover target own carried net') (hne : who ≠ mover)
    (closed : net.isOpen who peer = false) : net'.end? who peer = net.end? who peer := by
  by_cases hp : who = target ∧ peer = mover
  · obtain ⟨rfl, rfl⟩ := hp
    rw [moves.end_peer hne.symm]
    cases carried with
    | none => exact Option.map_id_apply
    | some bytes => exact map_receive_closed closed bytes
  · exact moves.end_other (fun h' => hne h'.1) hp

theorem Exchanged.end_closed {mover : Rank} {choice : Choice} {exchange : Exchange}
    {answer : Option exchange.Answer} (h : net.Exchanged mover choice exchange answer net')
    (hne : who ≠ mover) (closed : net.isOpen who peer = false) :
    net'.end? who peer = net.end? who peer := by
  cases h with
  | send _ _ moves => exact moves.end_closed hne closed
  | take _ _ _ _ moves => exact moves.end_closed hne closed
  | hangUp _ ends => rw [ends, end_hangUp, if_neg hne]
  | note _ ends | sendNowhere _ _ ends | takeNowhere _ _ ends => rw [ends]

theorem Fidelity.end_closed (h : Fidelity size steps net)
    (hm : net.Moved move net' seen answered) (hne : who ≠ move.who)
    (closed : net.isOpen who peer = false) : net'.end? who peer = net.end? who peer := by
  cases hm with
  | proceed proceeds =>
    cases proceeds with
    | start | act | finish => rw [end_setActivity]
    | wait _ comes => exact (h.exchanged comes).end_closed hne closed
    | exchange _ comes =>
      rw [end_setActivity]
      exact (h.exchanged comes).end_closed hne closed
  | @leave mover =>
    rw [Move.who] at hne
    rw [end_setActivity, end_hangUp, if_neg hne]
  | @crash mover written there =>
    rw [Move.who] at hne
    rw [Network.crash, end_setActivity, end_hangUp, if_neg hne]
    cases (carryPart_leaves net mover written).2 with
    | nothing ends => rw [ends]
    | part _ _ _ ends =>
      rw [ends]
      split
      · exact map_receive_closed closed _
      · rfl

theorem Exchanged.sentTo_closed {choice : Choice} {exchange : Exchange}
    {answer : exchange.Answer} (h : net.Exchanged who choice exchange (some answer) net')
    (closed : net.isOpen who peer = false) : Step.sentTo? peer ⟨exchange, answer⟩ = none := by
  generalize ha : some answer = given at h
  cases h with
  | hangUp | note | take | takeNowhere => rfl
  | sendNowhere =>
    cases ha
    rfl
  | send has sends =>
    cases ha
    cases sends with
    | dead | oversized | lost | broken => rfl
    | delivered live =>
      apply if_neg
      rintro rfl
      rw [isOpen_of_end has, live] at closed
      cases closed

theorem Fidelity.sent_closed (h : Fidelity size steps net)
    (hm : net.Moved move net' seen (Step.mk net move net' seen).answered?)
    (closed : net.isOpen who peer = false) :
    sent (steps ++ [⟨net, move, net', seen⟩]) who peer = sent steps who peer := by
  by_cases mover : move.who = who
  · subst mover
    generalize hans : (Step.mk net move net' seen).answered? = answered at hm
    cases hm with
    | leave | crash => exact (silent_none hans _ _).1
    | proceed proceeds =>
      cases proceeds with
      | start | act | finish | wait => exact (silent_none hans _ _).1
      | exchange _ comes =>
        rw [sent_next, hans, Option.bind_some, (h.exchanged comes).sentTo_closed closed,
          Option.toList_none, ite_self, List.append_nil]
  · exact (history_other mover peer).1

/-- At a closed end nothing changes but that kept frames are taken. -/
structure Wanes (steps steps' : List (Step α)) (who peer : Rank) (link link' : Link) : Prop where
  shut : link'.live = false
  kept : link'.pending.Sublist link.pending
  together : ∀ wanted : Wanted,
    (taken steps' who peer ++ link'.pending).filter wanted.accepts =
      (taken steps who peer ++ link.pending).filter wanted.accepts

theorem wanes_same (shut : link.live = false) {steps' : List (Step α)}
    (same : taken steps' who peer = taken steps who peer) :
    Wanes steps steps' who peer link link :=
  ⟨shut, .refl _, fun wanted => by rw [same]⟩

theorem wanes_close {steps' : List (Step α)} (same : taken steps' who peer = taken steps who peer) :
    Wanes steps steps' who peer link link.close :=
  ⟨rfl, .refl _, fun wanted => by rw [same]; rfl⟩

theorem Fidelity.wanes_exchange (h : Fidelity size steps net) {choice : Choice}
    {exchange : Exchange} (answer : Option exchange.Answer) (mover : step.move.who = who)
    (answered : step.answered? = answer.map (Sigma.mk exchange))
    (comes : net.exchange? who choice exchange = some (answer, net'))
    (has : net.end? who peer = some link) (shut : link.live = false) :
    ∃ link', net'.end? who peer = some link' ∧
      Wanes steps (steps ++ [step]) who peer link link' := by
  have hne := h.ne_of_end has
  cases h.exchanged comes with
  | @send target frame other own result carried _ has' sends moves =>
    have same : taken (steps ++ [step]) who peer = taken steps who peer :=
      taken_other (fun _ _ ht => by rw [answered] at ht; cases ht) who
    by_cases ht : peer = target
    · subst ht
      obtain rfl := Option.some.inj (has.symm.trans has')
      cases sends with
      | dead => exact ⟨_, moves.end_own, wanes_same shut same⟩
      | oversized live | delivered live | lost live | broken live =>
        rw [shut] at live
        cases live
    · refine ⟨link, ?_, wanes_same shut same⟩
      rw [moves.end_other (fun h' => ht h'.2) fun h' => hne h'.2.symm, has]
  | @take source wanted other own arrived result _ has' holds takes progress moves =>
    by_cases hs : peer = source
    · subst hs
      obtain rfl := Option.some.inj (has.symm.trans has')
      cases takes with
      | @kept before after found split accepted passed =>
        refine ⟨_, moves.end_own, shut, ?_, fun other => ?_⟩
        · rw [split]
          exact (List.sublist_cons_self found after).append_left before
        · rw [taken_take answered, if_pos ⟨mover, rfl⟩, split]
          exact Wanted.filter_taken accepted passed other _ _
      | dead =>
        refine ⟨_, moves.end_own, wanes_same shut ?_⟩
        rw [taken_take answered, Taken.frames, ite_self, List.append_nil]
      | broken _ live | arrived _ live | ended _ live | waiting _ live =>
        rw [shut] at live
        cases live
    · refine ⟨link, ?_, wanes_same shut ?_⟩
      · rw [moves.end_other (fun h' => hs h'.2) fun h' => hne h'.2.symm, has]
      · apply taken_other
        intro other taken' ht
        rw [answered] at ht
        cases result with
        | none => cases ht
        | some =>
          cases ht
          exact hs rfl
  | hangUp alike ends =>
    refine ⟨link.close, ?_, wanes_close ?_⟩
    · rw [ends, end_hangUp, if_pos rfl, has]
      rfl
    · exact taken_other (fun _ _ ht => by rw [answered] at ht; cases ht) who
  | note alike ends | sendNowhere _ alike ends =>
    refine ⟨link, by rw [ends, has], wanes_same shut ?_⟩
    exact taken_other (fun _ _ ht => by rw [answered] at ht; cases ht) who
  | takeNowhere _ alike ends =>
    refine ⟨link, by rw [ends, has], wanes_same shut ?_⟩
    rw [(silent_nowhere (.inr ⟨_, answered⟩) who peer).2]

theorem end_leaving (net : Network α) (who peer : Rank) (result : Option α) :
    ((net.hangUp who).setActivity who (.left result)).end? who peer =
      (net.end? who peer).map Link.close := by
  rw [end_setActivity, end_hangUp, if_pos rfl]

theorem Fidelity.end_crashing (h : Fidelity size steps net) (who peer : Rank) (written : Nat) :
    (net.crash who written).end? who peer = (net.end? who peer).map Link.close := by
  rw [Network.crash, end_leaving]
  cases (carryPart_leaves net who written).2 with
  | nothing ends => rw [ends]
  | part _ _ opened ends =>
    obtain ⟨own, has, -⟩ := end_of_isOpen opened
    rw [ends, if_neg fun h' => h.ne_of_end has h'.1]

theorem Fidelity.wanes (h : Fidelity size steps net)
    (hm : net.Moved move net' seen (Step.mk net move net' seen).answered?)
    (has : net.end? who peer = some link) (shut : link.live = false) :
    ∃ link', net'.end? who peer = some link' ∧
      Wanes steps (steps ++ [⟨net, move, net', seen⟩]) who peer link link' := by
  by_cases mover : move.who = who
  · subst mover
    generalize hans : (Step.mk net move net' seen).answered? = answered at hm
    have still : answered = none → taken (steps ++ [⟨net, move, net', seen⟩]) move.who peer =
        taken steps move.who peer := fun hn => (silent_none (hans.trans hn) _ _).2
    cases hm with
    | leave =>
      rw [Move.who] at has still ⊢
      exact ⟨link.close, by rw [end_leaving, has]; rfl, wanes_close (still rfl)⟩
    | crash =>
      rw [Move.who] at has still ⊢
      exact ⟨link.close, by rw [h.end_crashing, has]; rfl, wanes_close (still rfl)⟩
    | proceed proceeds =>
      cases proceeds with
      | start | act | finish =>
        refine ⟨link, ?_, wanes_same shut (still rfl)⟩
        rw [end_setActivity, has]
      | @wait call exchange rest next after doing comes =>
        exact h.wanes_exchange none rfl hans comes has shut
      | @exchange call exchange rest next answer after doing comes =>
        rw [end_setActivity]
        exact h.wanes_exchange (some answer) rfl hans comes has shut
  · have closed : net.isOpen who peer = false := by rw [isOpen_of_end has, shut]
    exact ⟨link, by rw [h.end_closed hm (Ne.symm mover) closed, has],
      wanes_same shut (history_other mover peer).2⟩

end Closed

/-- Both ends are closed, and what the peer had sent was taken, is kept, or was given up unread by
a write. -/
structure Settled (steps : List (Step α)) (net : Network α) (who peer : Rank) (link : Link) :
    Prop where
  has : net.end? who peer = some link
  shut : link.live = false
  closed : net.isOpen peer who = false
  total : ∀ wanted : Wanted,
    (taken steps who peer ++ link.pending ++ dropped steps who peer).filter wanted.accepts =
      (sent steps peer who).filter wanted.accepts

def Parted (steps : List (Step α)) (net : Network α) (who : Rank) : Prop :=
  ⟨.hangUp, ()⟩ ∈ exchanges steps who ∨ ∃ result, net.activity? who = some (.left result)

/-- As long as an end is open nothing is given up at it, and it is closed by its participant
parting or by the peer being found gone. -/
structure Attended (steps : List (Step α)) (net : Network α) (who peer : Rank) (link : Link) :
    Prop where
  has : net.end? who peer = some link
  spared : link.live = true → dropped steps who peer = []
  settled : link.live = false → Parted steps net who ∨ Settled steps net who peer link

section Moving

variable {move : Move} {seen : List Event}

theorem dropped_shut (has : net.end? who peer = some link) (shut : link.live = false) :
    dropped (steps ++ [⟨net, move, net', seen⟩]) who peer = dropped steps who peer := by
  rw [dropped_next]
  split
  · rename_i mover
    rw [Step.dropped_closed (mover ▸ has) shut, List.append_nil]
  · exact List.append_nil _

theorem Settled.next (h : Settled steps net who peer link) (fidelity : Fidelity size steps net)
    (hm : net.Moved move net' seen (Step.mk net move net' seen).answered?) :
    ∃ link', Settled (steps ++ [⟨net, move, net', seen⟩]) net' who peer link' ∧
      Wanes steps (steps ++ [⟨net, move, net', seen⟩]) who peer link link' := by
  obtain ⟨link', has, wanes⟩ := fidelity.wanes hm h.has h.shut
  refine ⟨link', ⟨has, wanes.shut, fidelity.isOpen_closed_next hm h.closed, ?_⟩, wanes⟩
  intro wanted
  rw [fidelity.sent_closed hm h.closed, dropped_shut h.has h.shut, List.filter_append,
    wanes.together, ← List.filter_append, h.total]

theorem Parted.next {answered : Option Answered} (h : Parted steps net who)
    (fidelity : Fidelity size steps net) (hm : net.Moved move net' seen answered) :
    Parted (steps ++ [⟨net, move, net', seen⟩]) net' who := by
  rcases h with hung | ⟨result, left⟩
  · apply Or.inl
    rw [exchanges_next]
    exact List.mem_append_left _ hung
  · apply Or.inr
    by_cases mover : move.who = who
    · subst mover
      cases hm with
      | proceed proceeds =>
        cases proceeds with
        | start doing | act doing | finish doing | wait doing | exchange doing =>
          rw [Move.who, doing] at left
          cases left
      | leave doing =>
        rw [Move.who, doing] at left
        cases left
      | crash there => exact ⟨none, activity_crash there _⟩
    · exact ⟨result, (fidelity.frame hm (Ne.symm mover)).1.trans left⟩

end Moving

section Settling

variable {choice : Choice} {own : Link}

/-- A write that closes an end has found the peer's end closed, and gives up what had arrived. -/
theorem Fidelity.settles_send (h : Fidelity size steps net) {frame : Frame} {result : Sent}
    {carried : Option (List UInt8)} (mover : step.move.who = who) (before : step.before = net)
    (answered : step.answered? = some ⟨.send peer frame, result⟩)
    (sends : link.Sends frame (net.reception who peer choice) result own carried)
    (moves : net.Moves who peer own carried net') (sound : choice.breakdown = none)
    (has : net.end? who peer = some link) (live : link.live = true)
    (spared : dropped steps who peer = []) (shut : own.live = false) :
    Settled (steps ++ [step]) net' who peer own := by
  have hne := h.ne_of_end has
  cases sends with
  | dead dead =>
    rw [live] at dead
    cases dead
  | oversized | delivered | broken =>
    rw [live] at shut
    cases shut
  | lost _ refused =>
    have closed : net.isOpen peer who = false := by
      simp only [reception, sound] at refused
      split at refused
      · rename_i noticed
        simpa using (Bool.and_eq_true_iff.mp noticed).2
      · cases refused
    obtain ⟨arrived, hf⟩ := h.faithful who peer link has
    have gives : dropped (steps ++ [step]) who peer = arrived := by
      rw [dropped_next, if_pos mover, spared, List.nil_append,
        Step.dropped_open answered (by rw [mover, before, has]) live, hf.holds.unread]
    refine ⟨moves.end_own, shut, (moves.isOpen_peer hne).trans closed, fun wanted => ?_⟩
    rw [(history_other (fun he => hne (mover.symm.trans he)) who).1, gives,
      taken_other (fun _ _ hx => by rw [answered] at hx; cases hx) who]
    exact hf.complete live wanted

/-- Waiting that closes an end has found the peer's end closed, and keeps what had arrived. -/
theorem Fidelity.settles_take (h : Fidelity size steps net) {wanted : Wanted}
    {arrived : List Frame} {answer : Option Taken} (mover : step.move.who = who)
    (answered : step.answered? = answer.map (Sigma.mk (Exchange.take peer wanted)))
    (holds : link.Holds arrived)
    (takes : link.Takes wanted.accepts (!net.isOpen peer who) choice.breakdown arrived answer own)
    (moves : net.Moves who peer own none net') (sound : choice.breakdown = none)
    (has : net.end? who peer = some link) (live : link.live = true)
    (spared : dropped steps who peer = []) (shut : own.live = false) :
    Settled (steps ++ [step]) net' who peer own := by
  have hne := h.ne_of_end has
  obtain ⟨arrived', hf⟩ := h.faithful who peer link has
  obtain rfl := hf.holds.unique holds
  cases takes with
  | dead _ dead =>
    rw [live] at dead
    cases dead
  | kept | arrived | waiting =>
    rw [live] at shut
    cases shut
  | broken _ _ broke =>
    rw [sound] at broke
    cases broke
  | ended _ _ _ finished =>
    have closed : net.isOpen peer who = false := by simpa using finished
    have gives : dropped (steps ++ [step]) who peer = [] := by
      rw [dropped_next, if_pos mover, spared, List.nil_append]
      rcases step.dropped_eq peer with hd | ⟨frame, hx⟩
      · exact hd
      · rw [answered] at hx
        cases hx
    refine ⟨moves.end_own, shut, (moves.isOpen_peer hne).trans closed, fun other => ?_⟩
    rw [(history_other (fun he => hne (mover.symm.trans he)) who).1, taken_take answered,
      Taken.frames, ite_self, gives, List.append_nil, List.append_nil, ← hf.complete live other,
      List.append_assoc]

/-- The exchange that closes an end of a participant that stays. -/
theorem Fidelity.settles (h : Fidelity size steps net) {exchange : Exchange}
    (answer : Option exchange.Answer) (mover : step.move.who = who) (before : step.before = net)
    (answered : step.answered? = answer.map (Sigma.mk exchange))
    (comes : net.exchange? who choice exchange = some (answer, net'))
    (sound : choice.breakdown = none) (has : net.end? who peer = some link)
    (live : link.live = true) (spared : dropped steps who peer = [])
    (has' : net'.end? who peer = some link') (shut : link'.live = false) :
    ⟨.hangUp, ()⟩ ∈ exchanges (steps ++ [step]) who ∨
      Settled (steps ++ [step]) net' who peer link' := by
  have hne := h.ne_of_end has
  have touched : net'.end? who peer ≠ net.end? who peer := by
    intro heq
    obtain rfl := Option.some.inj ((heq.trans has).symm.trans has')
    rw [live] at shut
    cases shut
  cases h.exchanged comes with
  | hangUp =>
    apply Or.inl
    rw [exchanges_next, if_pos mover, answered]
    exact List.mem_append_right _ List.mem_cons_self
  | note _ ends | sendNowhere _ _ ends | takeNowhere _ _ ends => exact absurd (by rw [ends]) touched
  | @send target frame other own result carried _ hasTarget sends moves =>
    by_cases ht : peer = target
    · subst ht
      obtain rfl := Option.some.inj (has.symm.trans hasTarget)
      obtain rfl := Option.some.inj (moves.end_own.symm.trans has')
      exact .inr
        (h.settles_send mover before answered sends moves sound has live spared shut)
    · exact absurd (moves.end_other (fun h' => ht h'.2) fun h' => hne h'.2.symm) touched
  | @take source wanted other own others result _ hasSource holds takes progress moves =>
    by_cases hs : peer = source
    · subst hs
      obtain rfl := Option.some.inj (has.symm.trans hasSource)
      obtain rfl := Option.some.inj (moves.end_own.symm.trans has')
      exact .inr (h.settles_take mover answered holds takes moves sound has live spared shut)
    · exact absurd (moves.end_other (fun h' => hs h'.2) fun h' => hne h'.2.symm) touched

end Settling

theorem Fidelity.spares (h : Fidelity size steps net) {move : Move} {seen : List Event}
    (hm : net.Moved move net' seen (Step.mk net move net' seen).answered?)
    (opened : net'.isOpen move.who peer = true) :
    (Step.mk net move net' seen).dropped peer = [] := by
  rcases (Step.mk net move net' seen).dropped_eq peer with hd | ⟨frame, answered⟩
  · exact hd
  · -- The write that found the peer gone has closed the end.
    rw [answered] at hm
    generalize hg : (some ⟨.send peer frame, .gone⟩ : Option Answered) = given at hm
    cases hm with
    | leave | crash => cases hg
    | proceed proceeds =>
      cases proceeds with
      | start | act | finish | wait => cases hg
      | exchange _ comes =>
        cases hg
        rw [isOpen_setActivity, Move.who, h.isOpen_closed comes (beq_self_eq_true peer)] at opened
        cases opened

namespace Attended

theorem start {program : Rank → Program Action.interface α} (begins : Starts size program net)
    (has : net.end? who peer = some link) : Attended [] net who peer link := by
  obtain rfl := begins.ends who peer link has
  exact ⟨has, fun _ => rfl, nofun⟩

section Next

variable {move : Move} {seen : List Event}

theorem next_closed (h : Attended steps net who peer link) (fidelity : Fidelity size steps net)
    (hm : net.Moved move net' seen (Step.mk net move net' seen).answered?)
    (has' : net'.end? who peer = some link') (shut : link.live = false) :
    Attended (steps ++ [⟨net, move, net', seen⟩]) net' who peer link' := by
  have closed : net.isOpen who peer = false := by rw [isOpen_of_end h.has, shut]
  have shut' : link'.live = false :=
    (isOpen_of_end has').symm.trans (fidelity.isOpen_closed_next hm closed)
  refine ⟨has', fun live => (Bool.false_ne_true (shut'.symm.trans live)).elim, fun _ => ?_⟩
  apply (h.settled shut).imp (fun parted => parted.next fidelity hm)
  intro settled
  obtain ⟨other, settled', -⟩ := settled.next fidelity hm
  obtain rfl := Option.some.inj (settled'.has.symm.trans has')
  exact settled'

theorem next_open (h : Attended steps net who peer link) (fidelity : Fidelity size steps net)
    (hm : net.Moved move net' seen (Step.mk net move net' seen).answered?)
    (has' : net'.end? who peer = some link') (live : link'.live = true) :
    Attended (steps ++ [⟨net, move, net', seen⟩]) net' who peer link' := by
  have opened : net'.isOpen who peer = true := (isOpen_of_end has').trans live
  refine ⟨has', fun _ => ?_, fun shut => (Bool.false_ne_true (shut.symm.trans live)).elim⟩
  have before : link.live = true := by
    apply Bool.ne_false_iff.mp
    intro shut
    have closed : net.isOpen who peer = false := by rw [isOpen_of_end h.has, shut]
    rw [fidelity.isOpen_closed_next hm closed] at opened
    cases opened
  rw [dropped_next, h.spared before]
  split
  · rename_i mover
    rw [← mover] at opened
    exact fidelity.spares hm opened
  · rfl

theorem next_shut (h : Attended steps net who peer link) (fidelity : Fidelity size steps net)
    (sound : move.IsSound) (hm : net.Moved move net' seen (Step.mk net move net' seen).answered?)
    (has' : net'.end? who peer = some link') (live : link.live = true)
    (shut : link'.live = false) :
    Parted (steps ++ [⟨net, move, net', seen⟩]) net' who ∨
      Settled (steps ++ [⟨net, move, net', seen⟩]) net' who peer link' := by
  have has := h.has
  have spared := h.spared live
  have mover : move.who = who := by
    apply Decidable.byContradiction
    intro hne
    have same := (fidelity.frame hm (Ne.symm hne)).2 peer
    rw [isOpen_of_end has, isOpen_of_end has', live, shut] at same
    cases same
  subst mover
  generalize hans : (Step.mk net move net' seen).answered? = answered at hm
  cases hm with
  | leave doing => exact .inl (.inr ⟨_, activity_leave doing _⟩)
  | crash there => exact .inl (.inr ⟨_, activity_crash there _⟩)
  | proceed proceeds =>
    cases proceeds with
    | start | act | finish =>
      rw [end_setActivity, has] at has'
      obtain rfl := Option.some.inj has'
      rw [live] at shut
      cases shut
    | @wait call exchange rest next after doing comes =>
      exact (fidelity.settles none rfl rfl hans comes sound has live spared has' shut).imp_left .inl
    | @exchange call exchange rest next answer after doing comes =>
      rw [end_setActivity] at has'
      apply (fidelity.settles (some answer) rfl rfl hans comes sound has live spared has' shut).imp
      · exact .inl
      · intro settled
        refine ⟨?_, shut, ?_, settled.total⟩
        · rw [end_setActivity, has']
        · rw [isOpen_setActivity, settled.closed]

theorem next (h : Attended steps net who peer link) (fidelity : Fidelity size steps net)
    (sound : move.IsSound) (hm : net.Moved move net' seen (Step.mk net move net' seen).answered?)
    (has' : net'.end? who peer = some link') :
    Attended (steps ++ [⟨net, move, net', seen⟩]) net' who peer link' := by
  cases live' : link'.live with
  | true => exact h.next_open fidelity hm has' live'
  | false =>
    cases live : link.live with
    | false => exact h.next_closed fidelity hm has' live
    | true =>
      refine ⟨has', fun opened => (Bool.false_ne_true (live'.symm.trans opened)).elim, fun _ => ?_⟩
      exact h.next_shut fidelity sound hm has' live live'

end Next
end Attended

theorem Execution.attended {program : Rank → Program Action.interface α} {start : Network α}
    (begins : Bootstrapped size program start) (run : Execution start steps net)
    (sound : ∀ step ∈ steps, step.move.IsSound) (has : net.end? who peer = some link) :
    Attended steps net who peer link := by
  induction run generalizing link with
  | start => exact .start begins.starts has
  | @next steps net net' move seen earlier moves ih =>
    have fidelity := earlier.fidelity begins
    obtain ⟨hw, hp⟩ := ((earlier.next moves).fidelity begins).star.mem_of_end has
    obtain ⟨before, hl⟩ := fidelity.star.end_isSome hw hp
    have h := ih (fun step hs => sound step (List.mem_append_left _ hs)) hl
    exact h.next fidelity (sound _ (List.mem_append_right _ List.mem_cons_self)) (moved moves) has

end Network
end FaultDrill
