import FaultDrill.Proofs.Fidelity
import FaultDrill.Proofs.Plan
set_option autoImplicit false

/-!
# Groups that follow a plan

When every participant does its part of a plan, the two ends of each connection stay joined in its
dialogue whatever the order of the steps is and whoever goes away. So what a participant is
answered is what its part of the plan takes the answers to mean.
-/
namespace FaultDrill

namespace Plan

variable {plan : Plan}

theorem side_other {a b : Rank} (ha : a ∈ Rank.everybody plan.size) (hb : b ∈ a.peers plan.size) :
    side b = (side a).other := by
  rcases Rank.mem_everybody.mp ha with rfl | hm
  · have hc := Rank.isCoordinator_member hb
    simp [side, hc, Rank.isCoordinator_iff.mpr, Side.other]
  · rw [Rank.peers_member hm] at hb
    obtain rfl := List.mem_singleton.mp hb
    have hc := Rank.isCoordinator_member hm
    simp [side, hc, Rank.isCoordinator_iff.mpr, Side.other]

theorem between_comm {a b : Rank} (ha : a ∈ Rank.everybody plan.size)
    (hb : b ∈ a.peers plan.size) : plan.between b a = plan.between a b := by
  rcases Rank.mem_everybody.mp ha with rfl | hm
  · have hc := Rank.isCoordinator_member hb
    simp [between, hc, Rank.isCoordinator_iff.mpr]
  · rw [Rank.peers_member hm] at hb
    obtain rfl := List.mem_singleton.mp hb
    have hc := Rank.isCoordinator_member hm
    simp [between, hc, Rank.isCoordinator_iff.mpr]

def Does {α : Type} (plan : Plan) (who : Rank) (post : Situation → α → Prop) (s : Situation) :
    Activity α → Prop
  | .running rest => plan.Fulfils who post s rest
  | .calling _ rest next => rest.Keeps (plan.contract who)
      (fun s' answer => plan.Fulfils who post s' (next answer)) s
  | .left result => ∃ before, s = before.close ∧ ∀ r, result = some r → post before r

end Plan

namespace Network

variable {α : Type} {plan : Plan} {post : Rank → Situation → α → Prop} {steps : List (Step α)}
  {net net' : Network α} {places : Rank → Situation} {who : Rank}

/-- The two ends of a connection as their holders' situations say. -/
def JoinedAt (plan : Plan) (net : Network α) (places : Rank → Situation) (a b : Rank) : Prop :=
  ∀ own peer, net.end? a b = some own → net.end? b a = some peer →
    (plan.between a b).Joined (Plan.side a) ((places a).standing b) ((places b).standing a) own peer

theorem JoinedAt.symm {a b : Rank} (h : JoinedAt plan net places a b)
    (ha : a ∈ Rank.everybody plan.size) (hb : b ∈ a.peers plan.size) :
    JoinedAt plan net places b a := by
  intro own peer ho hp
  rw [Plan.between_comm ha hb, Plan.side_other ha hb]
  exact (h peer own hp ho).symm

def place (places : Rank → Situation) (who : Rank) (s : Situation) (r : Rank) : Situation :=
  if r = who then s else places r

theorem place_same (s : Situation) : place places who s who = s := if_pos rfl

theorem place_other (s : Situation) {r : Rank} (h : r ≠ who) : place places who s r = places r :=
  if_neg h

def injectedBy (steps : List (Step α)) (who : Rank) : List FaultCode :=
  (injections steps).filterMap fun injection => if injection.1 = who then some injection.2 else none

/-- Everybody is where the plan and the past of the group say. -/
structure Coherent (plan : Plan) (post : Rank → Situation → α → Prop) (steps : List (Step α))
    (net : Network α) (places : Rank → Situation) : Prop where
  star : IsStar plan.size net
  joined : ∀ a ∈ Rank.everybody plan.size, ∀ b ∈ a.peers plan.size,
    JoinedAt plan net places a b
  does : ∀ r ∈ Rank.everybody plan.size, ∃ activity, net.activity? r = some activity ∧
    plan.Does r (post r) (places r) activity
  shut : ∀ r ∈ Rank.everybody plan.size, ∀ peer ∈ r.peers plan.size,
    ((places r).standing peer).status = .shut →
      ((places r).standing peer).turn = (plan.between r peer).length ∨
        ∃ result, net.activity? r = some (.left result)
  said : ∀ a ∈ Rank.everybody plan.size, ∀ b ∈ a.peers plan.size,
    sent steps a b = (plan.between a b).said (Plan.side a) 0 ((places a).standing b).turn
  injected : ∀ r, (places r).injected = injectedBy steps r ∧
    (places r).injected.length ≤ 1 ∧ ∀ code ∈ (places r).injected, plan.strikes r code
  crashed : ∀ r, net.activity? r = some (.left none) → Crashed steps r

theorem joined_update (h : ∀ a ∈ Rank.everybody plan.size, ∀ b ∈ a.peers plan.size,
      JoinedAt plan net places a b) (hw : who ∈ Rank.everybody plan.size) {s : Situation}
    (frame : ∀ a b, a ≠ who → b ≠ who → net'.end? a b = net.end? a b)
    (own : ∀ b ∈ who.peers plan.size, JoinedAt plan net' (place places who s) who b) :
    ∀ a ∈ Rank.everybody plan.size, ∀ b ∈ a.peers plan.size,
      JoinedAt plan net' (place places who s) a b := by
  intro a ha b hb
  obtain ⟨hb', ha', -⟩ := Rank.peers_symm ha hb
  by_cases haw : a = who
  · subst haw
    exact own b hb
  · by_cases hbw : b = who
    · subst hbw
      exact (own a ha').symm hw ha'
    · intro mine theirs hm ht
      rw [frame a b haw hbw] at hm
      rw [frame b a hbw haw] at ht
      rw [place_other s haw, place_other s hbw]
      exact h a ha b hb mine theirs hm ht

theorem joinedAt_moves (h : ∀ b ∈ who.peers plan.size, JoinedAt plan net places who b)
    (hw : who ∈ Rank.everybody plan.size) {peer : Rank} (hp : peer ∈ who.peers plan.size)
    {own : Link} {carried : Option (List UInt8)} {s : Situation}
    (moves : net.Moves who peer own carried net')
    (others : ∀ r, r ≠ peer → s.standing r = (places who).standing r)
    (joined : ∀ old, net.end? peer who = some old →
      (plan.between who peer).Joined (Plan.side who) (s.standing peer)
        ((places peer).standing who) own (old.gain carried)) :
    ∀ b ∈ who.peers plan.size, JoinedAt plan net' (place places who s) who b := by
  intro b hb mine theirs hm ht
  have hne := (Rank.peers_symm hw hp).2.2
  have hbw : b ≠ who := (Rank.peers_symm hw hb).2.2.symm
  rw [place_same, place_other s hbw]
  by_cases hbp : b = peer
  · subst hbp
    rw [moves.end_own] at hm
    rw [moves.end_peer hne] at ht
    obtain ⟨old, ho, rfl⟩ := Option.map_eq_some_iff.mp ht
    cases hm
    exact joined old ho
  · rw [moves.end_other (fun h' => hbp h'.2) fun h' => hne h'.1] at hm
    rw [moves.end_other (fun h' => hne h'.2) fun h' => hbp h'.1] at ht
    rw [others b hbp]
    exact h b hb mine theirs hm ht

/-- What comes of an exchange that was due: an answer that means what the plan takes it to mean,
with all connections of the participant still joined. -/
structure Answer (plan : Plan) (places : Rank → Situation) (net net' : Network α) (who : Rank)
    (exchange : Exchange) (answer : Option exchange.Answer) (given : exchange.Answer)
    (s : Situation) : Prop where
  answered : answer = some given
  follows : plan.follows who (places who) exchange given s
  joined : ∀ b ∈ who.peers plan.size, JoinedAt plan net' (place places who s) who b
  frame : ∀ a b, a ≠ who → b ≠ who → net'.end? a b = net.end? a b

theorem frame_moves {peer : Rank} {own : Link} {carried : Option (List UInt8)}
    (moves : net.Moves who peer own carried net') (a b : Rank) (ha : a ≠ who) (hb : b ≠ who) :
    net'.end? a b = net.end? a b :=
  moves.end_other (fun h' => ha h'.1) fun h' => hb h'.2

theorem reception_sound {peer : Rank} {choice : Choice} (sound : choice.breakdown = none)
    {kind : FaultKind} (refused : net.reception who peer choice = .refused kind) :
    kind = .brokenPipe ∧ net.isOpen peer who = false := by
  rw [reception, sound] at refused
  dsimp only at refused
  split at refused
  · rename_i hc
    cases refused
    exact ⟨rfl, by simpa using (Bool.and_eq_true_iff.mp hc).2⟩
  · cases refused

section Answers

variable (h : ∀ a ∈ Rank.everybody plan.size, ∀ b ∈ a.peers plan.size,
  JoinedAt plan net places a b) (hw : who ∈ Rank.everybody plan.size)
include h hw

theorem answer_send {peer : Rank} {frame : Frame} {choice : Choice} {link own : Link}
    {result : Sent} {carried : Option (List UInt8)} (sound : choice.breakdown = none)
    (due : plan.due who (places who) (.send peer frame)) (has : net.end? who peer = some link)
    (there : ∃ old, net.end? peer who = some old)
    (sends : link.Sends frame (net.reception who peer choice) result own carried)
    (moves : net.Moves who peer own carried net') :
    ∃ s, Answer plan places net net' who (.send peer frame) (some result) result s := by
  obtain ⟨hp, due⟩ := due
  obtain ⟨old, ho⟩ := there
  have joined := h who hw peer hp link old has ho
  have same : ∀ {s : Situation} {r : Rank}, r ≠ peer → (s.advance peer).standing r = s.standing r ∧
      (s.lose peer).standing r = s.standing r :=
    fun hr => ⟨Situation.change_other _ _ hr, Situation.change_other _ _ hr⟩
  cases sends with
  | dead dead =>
    have hlost : ((places who).standing peer).status = .lost := by
      refine due.resolve_right fun hengaged => ?_
      rw [joined.own.live.mpr hengaged.1] at dead
      cases dead
    refine ⟨(places who).lose peer, rfl, rfl, joinedAt_moves (h who hw) hw hp moves
      (fun r hr => (same hr).2) fun old' ho' => ?_, frame_moves moves⟩
    rw [Situation.lose_lost hlost]
    exact h who hw peer hp link old' has ho'
  | @oversized error live oversized =>
    refine ⟨places who, rfl, ⟨oversized, rfl⟩, joinedAt_moves (h who hw) hw hp moves
      (fun r hr => rfl) fun old' ho' => ?_, frame_moves moves⟩
    exact h who hw peer hp link old' has ho'
  | @delivered bytes live fits accepted =>
    have engaged := joined.own.live.mp live
    have ht := (due.resolve_left fun hlost => by rw [engaged] at hlost; cases hlost).2
    refine ⟨(places who).advance peer, rfl, ⟨engaged, rfl⟩, joinedAt_moves (h who hw) hw hp moves
      (fun r hr => (same hr).1) fun old' ho' => ?_, frame_moves moves⟩
    rw [Situation.advance, Situation.change_same]
    exact (h who hw peer hp link old' has ho').send engaged ht rfl fits
  | @lost kind live refused disconnect =>
    have engaged := joined.own.live.mp live
    have ht := (due.resolve_left fun hlost => by rw [engaged] at hlost; cases hlost).2
    have closed : ((places peer).standing who).status ≠ .engaged := by
      intro hengaged
      have hopen := (reception_sound sound refused).2
      rw [isOpen_of_end ho, joined.peer.live.mpr hengaged] at hopen
      cases hopen
    refine ⟨(places who).lose peer, rfl, rfl, joinedAt_moves (h who hw) hw hp moves
      (fun r hr => (same hr).2) fun old' ho' => ?_, frame_moves moves⟩
    have joined' := h who hw peer hp link old' has ho'
    rw [Situation.lose, Situation.change_same]
    exact joined'.lose engaged closed (joined'.not_ahead ht rfl) rfl joined'.own.pending
  | @broken kind live refused other =>
    rw [(reception_sound sound refused).1] at other
    cases other

theorem answer_take {peer : Rank} {wanted : Wanted} {choice : Choice} {link own : Link}
    {arrived : List Frame} {result : Option Taken} (sound : choice.breakdown = none)
    (due : plan.due who (places who) (.take peer wanted)) (has : net.end? who peer = some link)
    (there : ∃ old, net.end? peer who = some old) (holds : link.Holds arrived)
    (takes : link.Takes wanted.accepts (!net.isOpen peer who) choice.breakdown arrived result own)
    (progress : result = none → arrived ≠ []) (moves : net.Moves who peer own none net') :
    ∃ given s, Answer plan places net net' who (.take peer wanted) result given s := by
  obtain ⟨hp, due⟩ := due
  obtain ⟨old, ho⟩ := there
  have joined := h who hw peer hp link old has ho
  have same : ∀ {s : Situation} {r : Rank}, r ≠ peer → (s.advance peer).standing r = s.standing r ∧
      (s.lose peer).standing r = s.standing r :=
    fun hr => ⟨Situation.change_other _ _ hr, Situation.change_other _ _ hr⟩
  have kept := joined.own.pending
  -- While the participant is engaged, what has arrived begins with the frame it waits for.
  have hfirst : link.live = true → ∃ frame, ((places who).standing peer).status = .engaged ∧
      wanted.accepts frame = true ∧
      (plan.between who peer)[((places who).standing peer).turn]? =
        some ⟨(Plan.side who).other, frame⟩ := by
    intro live
    have engaged := joined.own.live.mp live
    obtain ⟨_, frame, accepted, ht⟩ := due.resolve_left fun hlost => by
      rw [engaged] at hlost
      cases hlost
    exact ⟨frame, engaged, accepted, ht⟩
  cases takes with
  | kept split =>
    rw [kept] at split
    simp at split
  | broken _ _ broke =>
    rw [sound] at broke
    cases broke
  | dead _ dead =>
    have hlost : ((places who).standing peer).status = .lost := by
      refine due.resolve_right fun hengaged => ?_
      rw [joined.own.live.mpr hengaged.1] at dead
      cases dead
    refine ⟨.gone, (places who).lose peer, rfl, rfl, joinedAt_moves (h who hw) hw hp moves
      (fun r hr => (same hr).2) fun old' ho' => ?_, frame_moves moves⟩
    rw [Situation.lose_lost hlost]
    exact h who hw peer hp link old' has ho'
  | @arrived before after found refused live _ split accepted passed =>
    obtain ⟨frame, engaged, hframe, ht⟩ := hfirst live
    rcases joined.arrived engaged ht rfl holds with ⟨rfl, -⟩ | ⟨said, harrived⟩
    · simp at split
    · rw [harrived] at split
      -- Nothing stands before the frame whose turn it is.
      cases before with
      | cons first before =>
        obtain ⟨rfl, -⟩ := List.cons.inj split
        have hrefused := passed frame List.mem_cons_self
        rw [hframe] at hrefused
        cases hrefused
      | nil =>
        obtain ⟨rfl, rfl⟩ := List.cons.inj split
        refine ⟨.frame frame, (places who).advance peer, rfl, ⟨engaged, ht, rfl⟩,
          joinedAt_moves (h who hw) hw hp moves (fun r hr => (same hr).1) fun old' ho' => ?_,
          frame_moves moves⟩
        have joined' := h who hw peer hp link old' has ho'
        rw [Situation.advance, Situation.change_same]
        refine joined'.take engaged ht rfl said live ?_ rfl rfl
        rw [kept]
        rfl
  | ended refused live _ finished =>
    obtain ⟨frame, engaged, hframe, ht⟩ := hfirst live
    rcases joined.arrived engaged ht rfl holds with ⟨rfl, behind⟩ | ⟨-, harrived⟩
    · have closed : ((places peer).standing who).status ≠ .engaged := by
        intro hengaged
        rw [isOpen_of_end ho, joined.peer.live.mpr hengaged] at finished
        cases finished
      refine ⟨.gone, (places who).lose peer, rfl, rfl, joinedAt_moves (h who hw) hw hp moves
        (fun r hr => (same hr).2) fun old' ho' => ?_, frame_moves moves⟩
      have joined' := h who hw peer hp link old' has ho'
      rw [Situation.lose, Situation.change_same]
      refine joined'.lose engaged closed behind rfl ?_
      rw [kept]
      rfl
    · have hrefused := refused frame (by rw [harrived]; simp)
      rw [hframe] at hrefused
      cases hrefused
  | waiting refused live _ going =>
    obtain ⟨frame, engaged, hframe, ht⟩ := hfirst live
    rcases joined.arrived engaged ht rfl holds with ⟨rfl, -⟩ | ⟨-, harrived⟩
    · exact absurd rfl (progress rfl)
    · have hrefused := refused frame (by rw [harrived]; simp)
      rw [hframe] at hrefused
      cases hrefused

theorem joinedAt_hangUp (ends : net'.end? = (net.hangUp who).end?) :
    ∀ b ∈ who.peers plan.size,
      JoinedAt plan net' (place places who (places who).close) who b := by
  intro b hb mine theirs hm ht
  have hbw : b ≠ who := (Rank.peers_symm hw hb).2.2.symm
  rw [ends, end_hangUp] at hm ht
  rw [if_pos rfl] at hm
  rw [if_neg hbw] at ht
  obtain ⟨old, ho, rfl⟩ := Option.map_eq_some_iff.mp hm
  rw [place_same, place_other _ hbw]
  exact (h who hw b hb old theirs ho ht).close

theorem answer {exchange : Exchange} {choice : Choice} {result : Option exchange.Answer}
    (star : IsStar plan.size net) (sound : choice.breakdown = none)
    (due : plan.due who (places who) exchange)
    (hx : net.Exchanged who choice exchange result net') :
    ∃ given s, Answer plan places net net' who exchange result given s := by
  have there : ∀ peer ∈ who.peers plan.size, ∃ old, net.end? peer who = some old := by
    intro peer hp
    obtain ⟨hp', hw', -⟩ := Rank.peers_symm hw hp
    exact star.end_isSome hp' hw'
  cases hx with
  | send has sends moves =>
    obtain ⟨s, ha⟩ := answer_send h hw sound due has (there _ due.1) sends moves
    exact ⟨_, s, ha⟩
  | take has holds takes progress moves =>
    exact answer_take h hw sound due has (there _ due.1) holds takes progress moves
  | hangUp alike ends =>
    refine ⟨(), (places who).close, rfl, rfl, joinedAt_hangUp h hw ends, fun a b ha hb => ?_⟩
    rw [ends, end_hangUp, if_neg ha]
  | note alike ends =>
    refine ⟨(), places who, rfl, rfl, fun b hb mine theirs hm ht => ?_, fun a b ha hb => ?_⟩
    · have hbw : b ≠ who := (Rank.peers_symm hw hb).2.2.symm
      rw [ends] at hm ht
      rw [place_same, place_other _ hbw]
      exact h who hw b hb mine theirs hm ht
    · rw [ends]
  | sendNowhere hasNot | takeNowhere hasNot =>
    obtain ⟨link, hl⟩ := star.end_isSome hw due.1
    rw [hasNot] at hl
    cases hl

end Answers

theorem said_follows {exchange : Exchange} {answer : exchange.Answer} {s : Situation}
    {step : Step α} (mover : step.move.who = who)
    (hanswered : step.answered? = some ⟨exchange, answer⟩)
    (due : plan.due who (places who) exchange)
    (follows : plan.follows who (places who) exchange answer s) {b : Rank}
    (said : sent steps who b =
      (plan.between who b).said (Plan.side who) 0 ((places who).standing b).turn) :
    sent (steps ++ [step]) who b =
      (plan.between who b).said (Plan.side who) 0 (s.standing b).turn := by
  cases exchange with
  | send peer frame =>
    rw [sent_send hanswered, said]
    cases answer with
    | delivered =>
      obtain ⟨engaged, rfl⟩ := follows
      have ht := (due.2.resolve_left fun hlost => by rw [engaged] at hlost; cases hlost).2
      rw [Situation.advance_turn]
      by_cases hb : b = peer
      · subst hb
        rw [if_pos ⟨mover, rfl, rfl⟩, if_pos rfl, Dialogue.said_last ht (Nat.zero_le _), if_pos rfl]
      · rw [if_neg fun h' => hb h'.2.1.symm, if_neg hb, List.append_nil]
    | gone =>
      obtain rfl : s = _ := follows
      rw [if_neg (fun h' => nomatch h'.2.2), List.append_nil, Situation.lose_turn]
    | failed error =>
      obtain ⟨-, rfl⟩ := follows
      rw [if_neg (fun h' => nomatch h'.2.2), List.append_nil]
  | take peer wanted =>
    have unsent : sent (steps ++ [step]) who b = sent steps who b :=
      sent_other (fun _ _ ha => by rw [hanswered] at ha; cases ha) who
    rw [unsent, said]
    cases answer with
    | frame frame =>
      obtain ⟨-, ht, rfl⟩ := follows
      rw [Situation.advance_turn]
      by_cases hb : b = peer
      · subst hb
        rw [if_pos rfl, Dialogue.said_skip_last ht (Side.other_ne _)]
      · rw [if_neg hb]
    | gone =>
      obtain rfl : s = _ := follows
      rw [Situation.lose_turn]
    | failed error => exact follows.elim
  | hangUp =>
    obtain rfl : s = _ := follows
    have unsent : sent (steps ++ [step]) who b = sent steps who b :=
      sent_other (fun _ _ ha => by rw [hanswered] at ha; cases ha) who
    rw [unsent, said, Situation.close_turn]
  | note entry =>
    obtain rfl : s = _ := follows
    have unsent : sent (steps ++ [step]) who b = sent steps who b :=
      sent_other (fun _ _ ha => by rw [hanswered] at ha; cases ha) who
    rw [unsent, said]

theorem injectedBy_next (steps : List (Step α)) (step : Step α) (who : Rank) :
    injectedBy (steps ++ [step]) who = injectedBy steps who ++ injectedBy [step] who := by
  rw [injectedBy, injections_next, List.filterMap_append]
  rfl

theorem injectedBy_other {step : Step α} (hne : step.move.who ≠ who) :
    injectedBy [step] who = [] := by
  refine List.filterMap_eq_nil_iff.mpr fun injection hi => ?_
  obtain ⟨step', hs, hevent⟩ := List.mem_flatMap.mp hi
  obtain rfl := List.mem_singleton.mp hs
  obtain ⟨event, -, he⟩ := List.mem_filterMap.mp hevent
  cases event with
  | injected code outcome =>
    cases he
    exact if_neg hne
  | started | finished | slept | printed | noted => cases he

namespace Coherent

theorem update (h : Coherent plan post steps net places) (fidelity : Fidelity plan.size steps net)
    {move : Move} {seen : List Event} {answered : Option Answered}
    (hm : net.Moved move net' seen answered) (hw : move.who ∈ Rank.everybody plan.size)
    {s : Situation} {activity : Activity α} (star : IsStar plan.size net')
    (joined : ∀ b ∈ move.who.peers plan.size,
      JoinedAt plan net' (place places move.who s) move.who b)
    (frame : ∀ a b, a ≠ move.who → b ≠ move.who → net'.end? a b = net.end? a b)
    (doing : net'.activity? move.who = some activity)
    (does : plan.Does move.who (post move.who) s activity)
    (shut : ∀ peer ∈ move.who.peers plan.size, (s.standing peer).status = .shut →
      (s.standing peer).turn = (plan.between move.who peer).length ∨
        ∃ result, activity = .left result)
    (said : ∀ b ∈ move.who.peers plan.size,
      sent (steps ++ [⟨net, move, net', seen⟩]) move.who b =
        (plan.between move.who b).said (Plan.side move.who) 0 (s.standing b).turn)
    (injected : s.injected = injectedBy (steps ++ [⟨net, move, net', seen⟩]) move.who ∧
      s.injected.length ≤ 1 ∧ ∀ code ∈ s.injected, plan.strikes move.who code)
    (crashed : activity = .left none → ∃ written, move = .crash move.who written) :
    Coherent plan post (steps ++ [⟨net, move, net', seen⟩]) net' (place places move.who s) := by
  have same : ∀ r, r ≠ move.who → net'.activity? r = net.activity? r := fun r hr =>
    (fidelity.frame hm hr).1
  refine ⟨star, joined_update h.joined hw frame joined, fun r hr => ?_, fun r hr peer hp hs => ?_,
    fun a ha b hb => ?_, fun r => ?_, fun r hl => ?_⟩
  · by_cases hrw : r = move.who
    · subst hrw
      rw [place_same]
      exact ⟨activity, doing, does⟩
    · rw [same r hrw, place_other s hrw]
      exact h.does r hr
  · by_cases hrw : r = move.who
    · subst hrw
      rw [place_same] at hs ⊢
      rw [doing]
      exact (shut peer hp hs).imp_right fun ⟨result, hr⟩ => ⟨result, by rw [hr]⟩
    · rw [same r hrw]
      rw [place_other s hrw] at hs ⊢
      exact h.shut r hr peer hp hs
  · by_cases haw : a = move.who
    · subst haw
      rw [place_same]
      exact said b hb
    · rw [place_other s haw, (history_other (Ne.symm haw) b).1]
      exact h.said a ha b hb
  · by_cases hrw : r = move.who
    · subst hrw
      rw [place_same]
      exact injected
    · rw [place_other s hrw, injectedBy_next, injectedBy_other (Ne.symm hrw), List.append_nil]
      exact h.injected r
  · rw [crashed_next]
    by_cases hrw : r = move.who
    · subst hrw
      rw [doing] at hl
      obtain ⟨written, hc⟩ := crashed (Option.some.inj hl)
      exact .inr ⟨written, hc⟩
    · rw [same r hrw] at hl
      exact .inl (h.crashed r hl)

theorem fits (h : Coherent plan post steps net places) {c : Communicator}
    (hc : net.communicator? who = some c) : plan.Fits who (places who) c := by
  have hw := h.star.mem_everybody hc
  refine ⟨h.star.shape hc, fun peer link hcl => ?_⟩
  have hl : net.end? who peer = some link := by rw [end_eq, hc]; exact hcl
  have hp := (h.star.mem_of_end hl).2
  obtain ⟨hp', hw', -⟩ := Rank.peers_symm hw hp
  obtain ⟨old, ho⟩ := h.star.end_isSome hp' hw'
  exact (h.joined who hw peer hp link old hl ho).own.live

theorem doing (h : Coherent plan post steps net places) {activity : Activity α}
    (doing : net.activity? who = some activity) :
    who ∈ Rank.everybody plan.size ∧ plan.Does who (post who) (places who) activity := by
  obtain ⟨c, hc⟩ := communicator_of_activity doing
  have hw := h.star.mem_everybody hc
  obtain ⟨activity', hd, does⟩ := h.does who hw
  rw [doing] at hd
  cases hd
  exact ⟨hw, does⟩

theorem quiet (h : Coherent plan post steps net places) (fidelity : Fidelity plan.size steps net)
    {move : Move} {seen : List Event} {answered : Option Answered} {old activity : Activity α}
    (hm : net.Moved move (net.setActivity move.who activity) seen answered)
    (silent : (Step.mk net move (net.setActivity move.who activity) seen).answered? = none)
    (was : net.activity? move.who = some old) (there : ∀ result, old ≠ .left result)
    (stays : ∀ result, activity ≠ .left result) {s : Situation}
    (standing : s.standing = (places move.who).standing)
    (does : plan.Does move.who (post move.who) s activity)
    (injected : s.injected = injectedBy
        (steps ++ [⟨net, move, net.setActivity move.who activity, seen⟩]) move.who ∧
      s.injected.length ≤ 1 ∧ ∀ code ∈ s.injected, plan.strikes move.who code) :
    Coherent plan post (steps ++ [⟨net, move, net.setActivity move.who activity, seen⟩])
      (net.setActivity move.who activity) (place places move.who s) := by
  have hw := (h.doing was).1
  refine h.update fidelity hm hw (h.star.setActivity _ _) (fun b hb mine theirs hl ht => ?_)
    (fun a b _ _ => by rw [end_setActivity]) (activity_setActivity_self was _) does
    (fun peer hp hs => ?_) (fun b hb => ?_) injected fun hl => absurd hl (stays none)
  · have hbw : b ≠ move.who := (Rank.peers_symm hw hb).2.2.symm
    rw [end_setActivity] at hl ht
    rw [place_same, place_other s hbw, standing]
    exact h.joined move.who hw b hb mine theirs hl ht
  · rw [standing] at hs ⊢
    refine (h.shut move.who hw peer hp hs).imp_right fun ⟨result, hr⟩ => ?_
    rw [was] at hr
    exact absurd (Option.some.inj hr) (there result)
  · rw [(silent_none silent _ _).1, standing]
    exact h.said move.who hw b hb

theorem parting (h : Coherent plan post steps net places)
    (fidelity : Fidelity plan.size steps net) {move : Move} {middle : Network α}
    {result : Option α}
    (hm : net.Moved move ((middle.hangUp move.who).setActivity move.who (.left result)) [] none)
    (hw : move.who ∈ Rank.everybody plan.size) (alike : net.Alike middle)
    (leaves : net.LeavesPart move.who middle)
    (silent : (Step.mk net move
      ((middle.hangUp move.who).setActivity move.who (.left result)) []).answered? = none)
    (finished : ∃ before, (places move.who).close = before.close ∧
      ∀ r, result = some r → post move.who before r)
    (crashed : result = none → ∃ written, move = .crash move.who written) :
    Coherent plan post
      (steps ++ [⟨net, move, (middle.hangUp move.who).setActivity move.who (.left result), []⟩])
      ((middle.hangUp move.who).setActivity move.who (.left result))
      (place places move.who (places move.who).close) := by
  obtain ⟨old, was, -⟩ := h.does move.who hw
  have alike' := alike.trans (alike_hangUp middle move.who)
  have was' := (congrFun alike'.activity move.who).trans was
  refine h.update fidelity hm hw ((h.star.alike alike').setActivity _ _)
    (fun b hb mine theirs hl ht => ?_) (fun a b ha hb => ?_) (activity_setActivity_self was' _)
    finished (fun peer hp hs => .inr ⟨result, rfl⟩) (fun b hb => ?_) ?_ fun hl => ?_
  · have hbw : b ≠ move.who := (Rank.peers_symm hw hb).2.2.symm
    rw [end_setActivity, end_hangUp] at hl ht
    rw [if_pos rfl] at hl
    rw [if_neg hbw] at ht
    obtain ⟨old, ho, rfl⟩ := Option.map_eq_some_iff.mp hl
    rw [place_same, place_other _ hbw]
    cases leaves with
    | nothing ends =>
      rw [ends] at ho ht
      exact (h.joined move.who hw b hb old theirs ho ht).close
    | @part peer frame bytes written fits part opened ends =>
      obtain ⟨mine, has, live⟩ := end_of_isOpen opened
      have hne := (Rank.peers_symm hw (h.star.mem_of_end has).2).2.2
      rw [ends, if_neg fun h' => hne h'.1] at ho
      rw [ends] at ht
      split at ht
      · rename_i hbp
        obtain ⟨rfl, -⟩ := hbp
        obtain ⟨before, hbefore, rfl⟩ := Option.map_eq_some_iff.mp ht
        rw [has] at ho
        cases ho
        exact (h.joined move.who hw b hb _ before has hbefore).part fits part live
      · exact (h.joined move.who hw b hb old theirs ho ht).close
  · rw [end_setActivity, end_hangUp, if_neg ha]
    cases leaves with
    | nothing ends => rw [ends]
    | part _ _ _ ends => rw [ends, if_neg fun h' => hb h'.2]
  · rw [(silent_none silent _ _).1]
    exact h.said move.who hw b hb
  · have hi := h.injected move.who
    rw [injectedBy_next]
    refine ⟨?_, hi.2⟩
    rw [← List.append_nil (places move.who).close.injected]
    exact congrArg (· ++ []) hi.1
  · exact crashed (Activity.left.inj hl)

theorem exchange (h : Coherent plan post steps net places)
    (fidelity : Fidelity plan.size steps net) {choice : Choice} {call : Call}
    {exchange : Exchange} {rest : exchange.Answer → Conduct call.Answer}
    {next : call.Answer → Program Action.interface α} {answer : Option exchange.Answer}
    {after : Network α} (sound : choice.breakdown = none)
    (doing : net.activity? who = some (.calling call (.ask exchange rest) next))
    (comes : net.exchange? who choice exchange = some (answer, after)) :
    ∃ given s, Answer plan places net after who exchange answer given s := by
  obtain ⟨hw, does⟩ := h.doing doing
  exact Network.answer h.joined hw h.star sound does.1 (fidelity.exchanged comes)

theorem next (h : Coherent plan post steps net places) (fidelity : Fidelity plan.size steps net)
    {move : Move} {seen : List Event} (sound : move.IsSound)
    (hm : net.Moved move net' seen (Step.mk net move net' seen).answered?) :
    ∃ s, Coherent plan post (steps ++ [⟨net, move, net', seen⟩]) net'
      (place places move.who s) := by
  generalize hans : (Step.mk net move net' seen).answered? = answered at hm
  have uninjected : ∀ step : Step α, injections [step] = [] →
      (places move.who).injected = injectedBy (steps ++ [step]) move.who ∧
        (places move.who).injected.length ≤ 1 ∧
        ∀ code ∈ (places move.who).injected, plan.strikes move.who code := by
    intro step hi
    have hnone : injectedBy [step] move.who = [] := by rw [injectedBy, hi]; rfl
    rw [injectedBy_next, hnone, List.append_nil]
    exact h.injected move.who
  cases hm with
  | @proceed who choice _ _ _ proceeds =>
    have hm : net.Moved (.proceed who choice) _ _ _ := .proceed proceeds
    cases proceeds with
    | @start call next c doing has =>
      have does := (h.doing doing).2
      exact ⟨places who, h.quiet fidelity hm hans doing (by simp) (by simp) rfl
        (does c (h.fits has)) (uninjected _ rfl)⟩
    | @act action next answer event doing comes =>
      have does := (h.doing doing).2
      cases action with
      | call call => cases comes
      | sleep | print | note =>
        cases comes
        exact ⟨places who,
          h.quiet fidelity hm hans doing (by simp) (by simp) rfl does (uninjected _ rfl)⟩
      | inject code =>
        cases comes
        obtain ⟨⟨strikes, fresh⟩, does⟩ := does
        refine ⟨{ places who with injected := [code] },
          h.quiet fidelity hm hans doing (by simp) (by simp) rfl (does choice.outcome) ⟨?_, ?_⟩⟩
        · rw [injectedBy_next, Move.who, ← (h.injected who).1, fresh]
          simp [injectedBy, injections, Move.who]
        · refine ⟨Nat.le_refl 1, fun other ho => ?_⟩
          obtain rfl := List.mem_singleton.mp ho
          exact strikes
    | @finish call answer next doing =>
      have does := (h.doing doing).2
      exact ⟨places who,
        h.quiet fidelity hm hans doing (by simp) (by simp) rfl does (uninjected _ rfl)⟩
    | @wait call exchange rest next after doing comes =>
      obtain ⟨given, s, ha⟩ := h.exchange fidelity sound doing comes
      cases ha.answered
    | @exchange call exchange rest next answer after doing comes =>
      obtain ⟨hw, due, does⟩ := h.doing doing
      obtain ⟨given, s, ha⟩ := h.exchange fidelity sound doing comes
      obtain rfl := Option.some.inj ha.answered
      have alike := (fidelity.exchanged comes).alike
      have doing' : after.activity? who = some _ := (congrFun alike.activity who).trans doing
      refine ⟨s, h.update fidelity hm hw ((h.star.alike alike).setActivity _ _)
        (fun b hb mine theirs hl ht => ?_) (fun a b hna hnb => ?_)
        (activity_setActivity_self doing' _) (does answer s ha.follows) (fun peer hp hs => ?_)
        (fun b hb => ?_) ?_ (by simp)⟩
      · rw [end_setActivity] at hl ht
        exact ha.joined b hb mine theirs hl ht
      · rw [end_setActivity]
        exact ha.frame a b hna hnb
      · rcases Plan.shut_follows hp due ha.follows hs with hsame | hend
        · rw [hsame] at hs ⊢
          refine (h.shut who hw peer hp hs).imp_right fun left => ?_
          obtain ⟨result, hl⟩ := left
          rw [doing] at hl
          cases hl
        · exact .inl hend
      · exact said_follows rfl hans due ha.follows (h.said who hw b hb)
      · have hnone : injections [Step.mk net (.proceed who choice)
            (after.setActivity who (.calling call (rest answer) next)) (noteOf exchange)] = [] := by
          cases exchange <;> rfl
        rw [Plan.injected_follows ha.follows]
        exact uninjected _ hnone
  | @leave who result doing =>
    have hm : net.Moved (.leave who) _ _ _ := .leave doing
    obtain ⟨hw, does⟩ := h.doing doing
    refine ⟨(places who).close, h.parting fidelity hm hw (.refl net) (.nothing rfl) hans
      ⟨places who, rfl, fun r hr => ?_⟩ (by simp)⟩
    cases hr
    exact does
  | @crash who written there =>
    have hm : net.Moved (.crash who written) _ _ _ := .crash there
    obtain ⟨site, hsite⟩ := Option.isSome_iff_exists.mp there
    have hw : who ∈ Rank.everybody plan.size :=
      h.star.mem_everybody (by rw [communicator?, hsite]; rfl)
    obtain ⟨alike, leaves⟩ := carryPart_leaves net who written
    exact ⟨(places who).close, h.parting fidelity hm hw alike leaves hans
      ⟨places who, rfl, by simp⟩ fun _ => ⟨written, rfl⟩⟩

theorem start {program : Rank → Program Action.interface α} {net : Network α}
    (begins : Starts plan.size program net)
    (fulfils : ∀ r ∈ Rank.everybody plan.size, plan.Fulfils r (post r) .start (program r)) :
    Coherent plan post [] net fun _ => .start := by
  refine ⟨begins.star, fun a ha b hb own peer ho hp => ?_, fun r hr => ?_, nofun,
    fun a ha b hb => ?_,
    fun r => ⟨rfl, Nat.zero_le 1, nofun⟩, fun r hl => ?_⟩
  · obtain rfl := begins.ends a b own ho
    obtain rfl := begins.ends b a peer hp
    exact .start (Plan.side a) b a
  · exact ⟨.running (program r), by rw [begins.activity, if_pos hr], fulfils r hr⟩
  · exact (Dialogue.said_nil (Nat.le_refl 0)).symm
  · rw [begins.activity] at hl
    split at hl <;> cases hl

end Coherent

theorem Execution.coherent {program : Rank → Program Action.interface α} {start net : Network α}
    {steps : List (Step α)} (begins : Bootstrapped plan.size program start)
    (run : Execution start steps net) (sound : ∀ step ∈ steps, step.move.IsSound)
    (fulfils : ∀ r ∈ Rank.everybody plan.size, plan.Fulfils r (post r) .start (program r)) :
    ∃ places, Coherent plan post steps net places := by
  induction run with
  | start => exact ⟨_, .start begins.starts fulfils⟩
  | @next steps net net' move seen earlier moves ih =>
    obtain ⟨places, h⟩ := ih fun step hs => sound step (List.mem_append_left _ hs)
    have hsound := sound ⟨net, move, net', seen⟩
      (List.mem_append_right _ (List.mem_singleton_self _))
    obtain ⟨s, h'⟩ := h.next (earlier.fidelity begins) hsound (moved moves)
    exact ⟨_, h'⟩

def result? (net : Network α) (who : Rank) : Option α := (net.site? who).bind Site.result?

theorem result_left {result : α} (doing : net.activity? who = some (.left (some result))) :
    net.result? who = some result := by
  obtain ⟨site, hs, ha⟩ := Option.map_eq_some_iff.mp doing
  rw [result?, hs, Option.bind_some, Site.result?, ha]

namespace Coherent

theorem ended (h : Coherent plan post steps net places) {result : α}
    (has : net.result? who = some result) :
    ∃ before, (places who = before ∨ places who = before.close) ∧ post who before result := by
  obtain ⟨site, hs, hr⟩ := Option.bind_eq_some_iff.mp has
  have doing : net.activity? who = some site.activity := by rw [activity?, hs]; rfl
  have does := (h.doing doing).2
  cases ha : site.activity with
  | running rest =>
    rw [ha] at does
    cases rest with
    | done result' =>
      simp only [Site.result?, ha, Option.some.injEq] at hr
      exact ⟨places who, .inl rfl, hr ▸ does⟩
    | ask action next => simp [Site.result?, ha] at hr
  | calling call rest next => simp [Site.result?, ha] at hr
  | left result' =>
    rw [ha] at does
    simp only [Site.result?, ha] at hr
    obtain ⟨before, hp, hpost⟩ := does
    exact ⟨before, .inr hp, hpost result hr⟩

theorem concluded (h : Coherent plan post steps net places) {result : α}
    (has : net.result? who = some result) : ∃ before, post who before result ∧
      (places who).injected = before.injected ∧ ∀ r,
        ((places who).standing r).turn = (before.standing r).turn ∧
        ((before.standing r).status = .lost → ((places who).standing r).status = .lost) := by
  obtain ⟨before, rfl | hplace, ends⟩ := h.ended has
  · exact ⟨_, ends, rfl, fun r => ⟨rfl, id⟩⟩
  · rw [hplace]
    exact ⟨before, ends, rfl, fun r => ⟨rfl, Standing.close_lost⟩⟩

/-- Who was found gone has closed its end and was not ahead. If something was left to be said
then it has crashed or its run has ended. -/
theorem missing (h : Coherent plan post steps net places) {peer : Rank}
    (hw : who ∈ Rank.everybody plan.size) (hp : peer ∈ who.peers plan.size)
    (lost : ((places who).standing peer).status = .lost)
    (left : ((places who).standing peer).turn < (plan.between who peer).length) :
    ((places peer).standing who).status = .shut ∧
      ((places peer).standing who).turn ≤ ((places who).standing peer).turn ∧
      (Crashed steps peer ∨ ∃ result, net.result? peer = some result ∧
        ∃ before, places peer = before.close ∧ post peer before result) := by
  obtain ⟨hpeer, hback, -⟩ := Rank.peers_symm hw hp
  obtain ⟨own, ho⟩ := h.star.end_isSome hw hp
  obtain ⟨other, hother⟩ := h.star.end_isSome hpeer hback
  obtain ⟨shut, behind⟩ := (h.joined who hw peer hp own other ho hother).own.lost lost
  refine ⟨shut, behind, ?_⟩
  rcases h.shut peer hpeer who hback shut with hend | ⟨result, doing⟩
  · rw [Plan.between_comm hw hp] at hend
    omega
  · cases result with
    | none => exact .inl (h.crashed peer doing)
    | some result =>
      obtain ⟨before, hplace, hpost⟩ := (h.doing doing).2
      exact .inr ⟨result, result_left doing, before, hplace, hpost result rfl⟩

theorem heard (h : Coherent plan post steps net places) {peer : Rank} {i : Nat} {turn : Turn}
    (hw : who ∈ Rank.everybody plan.size) (hp : peer ∈ who.peers plan.size)
    (past : i < ((places who).standing peer).turn)
    (ht : (plan.between who peer)[i]? = some turn) (hs : turn.speaker = (Plan.side who).other) :
    i < ((places peer).standing who).turn := by
  obtain ⟨hpeer, hback, -⟩ := Rank.peers_symm hw hp
  obtain ⟨own, ho⟩ := h.star.end_isSome hw hp
  obtain ⟨other, hother⟩ := h.star.end_isSome hpeer hback
  exact (h.joined who hw peer hp own other ho hother).own.heard i turn past ht hs

end Coherent

end Network
end FaultDrill
