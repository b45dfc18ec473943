import FaultDrill.Proofs.Rounds
set_option autoImplicit false

namespace FaultDrill.Network

variable {α : Type}

/-- A member enters no more often than it starts barriers, and passes no more of them than it has
taken releases. -/
structure Attends (steps : List (Step α)) (member : Rank) (stage : Stage) : Prop where
  side : ∀ awaited heard, stage ≠ .meeting awaited heard
  entered : (sent steps member .coordinator).count .barrierEnter +
    (if stage = .entering then 1 else 0) ≤ barriersStarted steps member
  released : barriersPassed steps member + (if stage = .passed then 1 else 0) ≤
    (taken steps member .coordinator).count .barrierRelease

/-- An enter frame goes out only where a member is about to enter, and a member has passed only
when it has taken its release. -/
structure Attending (stage : Stage) (exchange : Exchange) (answer : exchange.Answer) : Prop where
  side : ∀ awaited heard, stage.next exchange answer ≠ .meeting awaited heard
  entered : (Step.sentTo? .coordinator ⟨exchange, answer⟩).toList.count .barrierEnter +
    (if stage.next exchange answer = .entering then 1 else 0) ≤
      if stage = .entering then 1 else 0
  released : (if stage.next exchange answer = .passed then 1 else 0) ≤
    (if stage = .passed then 1 else 0) +
      (Step.takenFrom? .coordinator ⟨exchange, answer⟩).toList.count .barrierRelease

theorem attending_outside {stage : Stage} {exchange : Exchange} {answer : exchange.Answer}
    (outside : stage.next exchange answer = .outside)
    (silent : .barrierEnter ∉ (Step.sentTo? .coordinator ⟨exchange, answer⟩).toList) :
    Attending stage exchange answer := by
  refine ⟨by simp [outside], ?_, by simp [outside]⟩
  rw [List.count_eq_zero.mpr silent]
  simp [outside]

theorem member_exchange {stage : Stage} {exchange : Exchange} {answer : exchange.Answer}
    (side : ∀ awaited heard, stage ≠ .meeting awaited heard) (due : stage.due exchange)
    (fits : Answered.Fits exchange answer) : Attending stage exchange answer := by
  cases exchange with
  | note entry =>
    have same : stage.next (.note entry) answer = stage := stage.next_note entry
    refine ⟨?_, ?_, ?_⟩ <;> rw [same]
    · exact side
    · simp [Step.sentTo?]
    · simp [Step.takenFrom?]
  | send peer frame =>
    cases stage with
    | outside =>
      cases answer with
      | delivered =>
        refine attending_outside rfl fun sends => ?_
        by_cases hp : peer = .coordinator
        · exact due.1 (by simpa [Step.sentTo?, hp, eq_comm] using sends)
        · simp [Step.sentTo?, hp] at sends
      | gone | failed => exact attending_outside rfl (by simp [Step.sentTo?])
    | entering =>
      obtain ⟨rfl, rfl⟩ := due
      cases answer with
      | delivered => exact ⟨by simp [Stage.next], by decide, by decide⟩
      | gone | failed => exact attending_outside rfl (by simp [Step.sentTo?])
    | waiting | passed => exact due.elim
    | meeting awaited heard => exact absurd rfl (side awaited heard)
  | take peer wanted =>
    cases stage with
    | outside => exact attending_outside rfl (by simp [Step.sentTo?])
    | waiting =>
      obtain ⟨rfl, rfl⟩ := due
      cases answer with
      | frame frame =>
        obtain rfl : frame = .barrierRelease := by cases frame <;> first | rfl | cases fits
        exact ⟨by simp [Stage.next], by decide, by decide⟩
      | gone | failed => exact attending_outside rfl (by simp [Step.sentTo?])
    | entering | passed => exact due.elim
    | meeting awaited heard => exact absurd rfl (side awaited heard)
  | hangUp =>
    cases stage with
    | outside => exact attending_outside rfl (by simp [Step.sentTo?])
    | entering | waiting | passed => exact due.elim
    | meeting awaited heard => exact absurd rfl (side awaited heard)

theorem Attends.next {steps : List (Step α)} {step : Step α} {member : Rank}
    {stage stage' : Stage} {c : Communicator} {seen : List Event} {answered : Option Answered}
    (h : Attends steps member stage) (mover : step.move.who = member)
    (hseen : step.seen = seen) (hanswered : step.answered? = answered)
    (spoke : c.topology.isSpoke = true) (advance : Advances c stage seen answered stage') :
    Attends (steps ++ [step]) member stage' := by
  have hs : barriersStarted (steps ++ [step]) member = _ := barriersStarted_next mover
  have hp : barriersPassed (steps ++ [step]) member = _ := barriersPassed_next mover
  have he : (sent (steps ++ [step]) member .coordinator).count .barrierEnter = _ :=
    count_sent_next mover .coordinator .barrierEnter
  have hr : (taken (steps ++ [step]) member .coordinator).count .barrierRelease = _ :=
    count_taken_next mover .coordinator .barrierRelease
  obtain ⟨side, entered, released⟩ := h
  rw [hseen] at hs hp
  rw [hanswered] at he hr
  cases advance with
  | @start call idle =>
    subst idle
    cases call with
    | barrier =>
      have hfirst : Stage.first c .barrier = .entering := if_pos spoke
      rw [hfirst]
      refine ⟨by simp, ?_, ?_⟩
      · simp [he, hs, Event.startsBarrier] at entered ⊢
        omega
      · simp [hp, hr, Event.passesBarrier] at released ⊢
        omega
    | broadcast | send | recv | departed | finalize =>
      refine ⟨by simp [Stage.first], ?_, ?_⟩
      · simp [he, hs, Event.startsBarrier, Stage.first] at entered ⊢
        omega
      · simp [hp, hr, Event.passesBarrier, Stage.first] at released ⊢
        omega
  | act idle neither nor =>
    subst idle
    refine ⟨by simp, ?_, ?_⟩
    · simp [he, hs, neither] at entered ⊢
      omega
    · simp [hp, hr, nor] at released ⊢
      omega
  | @finish call answer finished =>
    refine ⟨by simp, ?_, ?_⟩
    · simp [he, hs, Event.startsBarrier] at entered ⊢
      omega
    · have hpass : stage ≠ .passed → (Event.finished call answer).passesBarrier = false := by
        intro hne
        refine Bool.eq_false_iff.mpr fun passes => ?_
        rcases ends_of_passes finished passes with rfl | rfl
        · exact hne rfl
        · exact side _ _ rfl
      by_cases hstage : stage = .passed
      · simp [hp, hr, hstage] at released ⊢
        have hle := List.countP_le_length (p := Event.passesBarrier) (l := [.finished call answer])
        simp at hle
        omega
      · simp [hp, hr, hstage, hpass hstage] at released ⊢
        omega
  | wait =>
    refine ⟨side, ?_, ?_⟩
    · simpa [he, hs] using entered
    · simpa [hp, hr] using released
  | @exchange exchange answer due fits =>
    obtain ⟨side', hsend, htake⟩ := member_exchange side due fits
    rw [noteOf_startsBarrier] at hs
    rw [noteOf_passesBarrier] at hp
    refine ⟨side', ?_, ?_⟩
    · rw [he, hs, Option.bind_some]
      omega
    · rw [hp, hr, Option.bind_some]
      omega
  | quit =>
    refine ⟨by simp, ?_, ?_⟩
    · simp [he, hs] at entered ⊢
      omega
    · simp [hp, hr] at released ⊢
      omega

theorem Attends.other {steps : List (Step α)} {step : Step α} {member : Rank} {stage : Stage}
    (h : Attends steps member stage) (mover : step.move.who ≠ member) :
    Attends (steps ++ [step]) member stage := by
  have hseen : seenOf (steps ++ [step]) member = seenOf steps member := seenOf_other mover
  have hsame : sent (steps ++ [step]) member .coordinator = _ ∧ _ :=
    history_other mover .coordinator
  refine ⟨h.side, ?_, ?_⟩
  · rw [hsame.1, barriersStarted, hseen]
    exact h.entered
  · rw [hsame.2, barriersPassed, hseen]
    exact h.released

theorem IsStar.recorded {size : UInt32} {net : Network α} (star : IsStar size net) {peer : Rank}
    (hm : peer ∈ Rank.members size) :
    peer ∈ (net.topology .coordinator).departedPeers ∨ net.isOpen .coordinator peer = true := by
  obtain ⟨link, hl⟩ := star.end_isSome (Rank.coordinator_mem_everybody _) hm
  obtain ⟨c, hc, hcl⟩ := communicator_of_end hl
  have ht : net.topology .coordinator = c.topology := by rw [topology, hc]; rfl
  rw [ht, isOpen_of_end hl]
  cases live : link.live with
  | true => exact .inr rfl
  | false => exact .inl (Topology.mem_departedPeers hcl live)

theorem IsStar.live {size : UInt32} {net : Network α} (star : IsStar size net) :
    (net.topology .coordinator).livePeers.Nodup ∧ ∀ peer, net.isOpen .coordinator peer = true →
      peer ∈ (net.topology .coordinator).livePeers := by
  obtain ⟨c, hc, hshape⟩ := star.communicator (Rank.coordinator_mem_everybody _)
  have ht : net.topology .coordinator = c.topology := by rw [topology, hc]; rfl
  have hp : c.topology.peers = Rank.members size := congrArg (fun shape => shape.2.2.1) hshape
  rw [ht]
  refine ⟨c.topology.livePeers_sublist.nodup (hp ▸ Rank.nodup_members size), fun peer ho => ?_⟩
  obtain ⟨link, hl, live⟩ := end_of_isOpen ho
  rw [end_eq, hc] at hl
  exact Topology.mem_livePeers hl live

/-- The coordinator has taken as many enter frames from each that is still there as its collecting
loops have ended, one more from those already heard in the loop that runs, and has released
nobody more often. -/
structure Presides (size : UInt32) (steps : List (Step α)) (net : Network α) (stage : Stage) :
    Prop where
  side : stage = .outside ∨ ∃ awaited heard, stage = .meeting awaited heard
  awaiting : ∀ awaited heard, stage = .meeting awaited heard →
    (rounds steps).awaited = awaited ∧ (heard ++ awaited).Nodup
  started : (rounds steps).ended.length + (if stage.awaited = [] then 0 else 1) ≤
    barriersStarted steps .coordinator
  passed : barriersPassed steps .coordinator + (if stage.isMet then 1 else 0) ≤
    (rounds steps).ended.length
  released : ∀ peer, (sent steps .coordinator peer).count .barrierRelease +
    (if peer ∈ stage.releasing then 1 else 0) ≤ (rounds steps).ended.length
  heard : ∀ peer ∈ Rank.members size, net.isOpen .coordinator peer = true →
    (rounds steps).ended.length + (if stage.awaited = [] ∨ peer ∈ stage.awaited then 0 else 1) ≤
      (taken steps .coordinator peer).count .barrierEnter
  history : ∀ k departed, (rounds steps).ended[k]? = some departed →
    ∀ peer ∈ Rank.members size, peer ∈ departed ∨
      k + 1 ≤ (taken steps .coordinator peer).count .barrierEnter

namespace Presides

variable {size : UInt32} {steps steps' : List (Step α)} {net net' : Network α}
  {stage stage' : Stage}

theorem still (h : Presides size steps net stage)
    (side : stage' = .outside ∨ ∃ awaited heard, stage' = .meeting awaited heard)
    (awaiting : ∀ awaited heard, stage' = .meeting awaited heard →
      (rounds steps').awaited = awaited ∧ (heard ++ awaited).Nodup)
    (ended : (rounds steps').ended = (rounds steps).ended)
    (fewer : stage'.awaited = [] ∨ stage'.awaited = stage.awaited)
    (started : barriersStarted steps .coordinator ≤ barriersStarted steps' .coordinator)
    (passed : barriersPassed steps' .coordinator + (if stage'.isMet then 1 else 0) ≤
      barriersPassed steps .coordinator + (if stage.isMet then 1 else 0))
    (released : ∀ peer, (sent steps' .coordinator peer).count .barrierRelease +
      (if peer ∈ stage'.releasing then 1 else 0) ≤
        (sent steps .coordinator peer).count .barrierRelease +
          (if peer ∈ stage.releasing then 1 else 0))
    (heard : ∀ peer, (taken steps .coordinator peer).count .barrierEnter ≤
      (taken steps' .coordinator peer).count .barrierEnter)
    (opened : ∀ peer, net'.isOpen .coordinator peer = true →
      net.isOpen .coordinator peer = true) :
    Presides size steps' net' stage' := by
  refine ⟨side, awaiting, ?_, ?_, fun peer => ?_, fun peer hm ho => ?_,
    fun k departed hk peer hm => ?_⟩
  · have hs := h.started
    rw [ended]
    rcases fewer with hf | hf
    · rw [if_pos hf]
      omega
    · rw [hf]
      omega
  · have hp := h.passed
    rw [ended]
    omega
  · have hr := h.released peer
    have hr' := released peer
    rw [ended]
    omega
  · have hh := h.heard peer hm (opened peer ho)
    have hh' := heard peer
    rw [ended]
    rcases fewer with hf | hf
    · rw [if_pos (.inl hf)]
      omega
    · rw [hf]
      omega
  · rw [ended] at hk
    have hh' := heard peer
    rcases h.history k departed hk peer hm with hd | hd
    · exact .inl hd
    · exact .inr (by omega)

theorem await (h : Presides size steps net stage) {awaited heard departed : List Rank}
    (hround : rounds steps' = (rounds steps).await awaited departed)
    (nodup : (heard ++ awaited).Nodup)
    (started : (rounds steps).ended.length + 1 ≤ barriersStarted steps' .coordinator)
    (passed : barriersPassed steps' .coordinator ≤ (rounds steps).ended.length)
    (released : ∀ peer, (sent steps' .coordinator peer).count .barrierRelease ≤
      (rounds steps).ended.length)
    (more : ∀ peer, (taken steps .coordinator peer).count .barrierEnter ≤
      (taken steps' .coordinator peer).count .barrierEnter)
    (opened : ∀ peer, net'.isOpen .coordinator peer = true →
      net.isOpen .coordinator peer = true)
    (hheard : ∀ peer ∈ Rank.members size, net'.isOpen .coordinator peer = true →
      peer ∉ awaited → (rounds steps).ended.length + 1 ≤
        (taken steps' .coordinator peer).count .barrierEnter)
    (known : ∀ peer ∈ Rank.members size, peer ∈ departed ∨
      net'.isOpen .coordinator peer = true) :
    Presides size steps' net' (.meeting awaited heard) := by
  have hmore : ∀ peer ∈ Rank.members size, net'.isOpen .coordinator peer = true →
      (rounds steps).ended.length ≤ (taken steps' .coordinator peer).count .barrierEnter := by
    intro peer hm ho
    have hh := h.heard peer hm (opened peer ho)
    have hh' := more peer
    omega
  cases awaited with
  | nil =>
    have hended : (rounds steps').ended = (rounds steps).ended ++ [departed] := by
      rw [hround]
      rfl
    refine ⟨.inr ⟨_, _, rfl⟩, ?_, ?_, ?_, fun peer => ?_, fun peer hm ho => ?_, ?_⟩
    · rintro _ _ ⟨rfl, rfl⟩
      exact ⟨by rw [hround]; rfl, nodup⟩
    · simpa [hended, Stage.awaited] using started
    · simpa [hended, Stage.isMet] using passed
    · have hr := released peer
      rw [hended, List.length_append]
      split
      · exact Nat.add_le_add_right hr 1
      · exact Nat.le_add_right_of_le hr
    · have hh := hheard peer hm ho List.not_mem_nil
      simpa [hended, Stage.awaited] using hh
    · intro k departed' hk peer hm
      rw [hended, List.getElem?_append] at hk
      split at hk
      · have hh' := more peer
        rcases h.history k departed' hk peer hm with hd | hd
        · exact .inl hd
        · exact .inr (by omega)
      · rename_i hlt
        obtain ⟨hk', rfl⟩ := List.getElem?_eq_some_iff.mp hk
        have hone : k = (rounds steps).ended.length := by simp at hk'; omega
        subst hone
        rcases known peer hm with hd | ho
        · exact .inl (by simpa using hd)
        · exact .inr (hheard peer hm ho List.not_mem_nil)
  | cons next awaited =>
    have hended : (rounds steps').ended = (rounds steps).ended := by
      rw [hround]
      rfl
    refine ⟨.inr ⟨_, _, rfl⟩, ?_, ?_, ?_, fun peer => ?_, fun peer hm ho => ?_, ?_⟩
    · rintro _ _ ⟨rfl, rfl⟩
      exact ⟨by rw [hround]; rfl, nodup⟩
    · simpa [hended, Stage.awaited] using started
    · simpa [hended, Stage.isMet] using passed
    · simpa [hended, Stage.releasing] using released peer
    · rw [hended]
      split
      · exact hmore peer hm ho
      · rename_i hn
        exact hheard peer hm ho fun hmem => hn (.inr hmem)
    · intro k departed' hk peer hm
      rw [hended] at hk
      have hh' := more peer
      rcases h.history k departed' hk peer hm with hd | hd
      · exact .inl hd
      · exact .inr (by omega)

theorem quiet (h : Presides size steps net stage) {step : Step α}
    (mover : step.move.who = .coordinator) (silent : step.answered? = none)
    (hseen : step.seen.countP Event.startsBarrier = 0)
    (hstage : stage' = .outside ∨ stage' = stage)
    (passed : step.seen.countP Event.passesBarrier + (if stage'.isMet then 1 else 0) ≤
      if stage.isMet then 1 else 0)
    (opened : ∀ peer, net'.isOpen .coordinator peer = true →
      net.isOpen .coordinator peer = true) :
    Presides size (steps ++ [step]) net' stage' := by
  have same : rounds (steps ++ [step]) = rounds steps := by
    rw [rounds_next, Rounds.after_quiet]
    · simpa [List.countP_eq_zero] using hseen
    · intro peer taken ha
      rw [silent] at ha
      cases ha
  have hsilent : Silent steps step := silent_none silent
  refine h.still ?_ ?_ (by rw [same]) ?_ ?_ ?_ (fun peer => ?_) (fun peer => ?_) opened
  · rcases hstage with rfl | rfl
    · exact .inl rfl
    · exact h.side
  · rintro awaited heard rfl
    rcases hstage with hstage | rfl
    · cases hstage
    · rw [same]
      exact h.awaiting awaited heard rfl
  · rcases hstage with rfl | rfl
    · exact .inl rfl
    · exact .inr rfl
  · exact barriersStarted_le mover
  · rw [barriersPassed_next mover]
    omega
  · rw [(hsilent _ _).1]
    rcases hstage with rfl | rfl
    · simp [Stage.releasing]
    · exact Nat.le_refl _
  · exact Nat.le_of_eq (by rw [(hsilent _ _).2])

theorem aside (h : Presides size steps net stage) {step : Step α} {exchange : Exchange}
    {answer : exchange.Answer} (mover : step.move.who = .coordinator)
    (hanswered : step.answered? = some ⟨exchange, answer⟩) (hseen : step.seen = noteOf exchange)
    (free : (∃ entry, exchange = .note entry) ∨ stage = .outside) (due : stage.due exchange)
    (opened : ∀ peer, net'.isOpen .coordinator peer = true →
      net.isOpen .coordinator peer = true) :
    Presides size (steps ++ [step]) net' stage := by
  have notEnter : ∀ peer, exchange ≠ .take peer .barrierEnter := by
    rintro peer rfl
    rcases free with ⟨entry, he⟩ | rfl
    · cases he
    · exact due.1 rfl
  have notRelease : ∀ peer, exchange ≠ .send peer .barrierRelease := by
    rintro peer rfl
    rcases free with ⟨entry, he⟩ | rfl
    · cases he
    · exact due.2 rfl
  have same : rounds (steps ++ [step]) = rounds steps := by
    rw [rounds_next, Rounds.after_quiet]
    · rw [hseen]
      cases exchange <;> rfl
    · intro peer taken ha
      rw [hanswered] at ha
      cases ha
      exact notEnter peer rfl
  have unreleased : ∀ peer,
      (Step.sentTo? peer ⟨exchange, answer⟩).toList.count .barrierRelease = 0 := by
    intro peer
    cases exchange with
    | send target frame =>
      have hne : frame ≠ .barrierRelease := fun he => notRelease target (by rw [he])
      cases answer with
      | delivered => by_cases hp : target = peer <;> simp [Step.sentTo?, hp, hne]
      | gone | failed => rfl
    | take | hangUp | note => rfl
  refine h.still h.side ?_ (by rw [same]) (.inr rfl) ?_ ?_ (fun peer => ?_) (fun peer => ?_) opened
  · rw [same]
    exact h.awaiting
  · exact barriersStarted_le mover
  · exact Nat.le_of_eq (by
      rw [barriersPassed_next mover, hseen, noteOf_passesBarrier, Nat.add_zero])
  · exact Nat.le_of_eq (by
      rw [count_sent_next mover, hanswered, Option.bind_some, unreleased, Nat.add_zero])
  · exact count_taken_le mover peer .barrierEnter

theorem release (h : Presides size steps net stage) {step : Step α} {next : Rank}
    {heard : List Rank} {answer : Sent} (hstage : stage = .meeting [] (next :: heard))
    (mover : step.move.who = .coordinator)
    (hanswered : step.answered? = some ⟨.send next .barrierRelease, answer⟩)
    (hseen : step.seen = [])
    (opened : ∀ peer, net'.isOpen .coordinator peer = true →
      net.isOpen .coordinator peer = true) :
    Presides size (steps ++ [step]) net' (stage.next (.send next .barrierRelease) answer) := by
  subst hstage
  have same : rounds (steps ++ [step]) = rounds steps := by
    rw [rounds_next, Rounds.after_quiet]
    · rw [hseen]
      rfl
    · intro peer taken ha
      rw [hanswered] at ha
      cases ha
  obtain ⟨hawaited, nodup⟩ := h.awaiting _ _ rfl
  rw [List.append_nil] at nodup
  obtain ⟨notMem, nodup⟩ := List.nodup_cons.mp nodup
  have hstarted : barriersStarted steps .coordinator ≤
      barriersStarted (steps ++ [step]) .coordinator := barriersStarted_le mover
  have hpassed : barriersPassed (steps ++ [step]) .coordinator =
      barriersPassed steps .coordinator := by
    rw [barriersPassed_next mover, hseen]
    rfl
  have htaken : ∀ peer, (taken steps .coordinator peer).count .barrierEnter ≤
      (taken (steps ++ [step]) .coordinator peer).count .barrierEnter :=
    fun peer => count_taken_le mover peer .barrierEnter
  have hsent : ∀ peer, (sent (steps ++ [step]) .coordinator peer).count .barrierRelease =
      (sent steps .coordinator peer).count .barrierRelease +
        if next = peer ∧ answer = .delivered then 1 else 0 := by
    intro peer
    rw [sent_send hanswered, List.count_append]
    congr 1
    by_cases hp : next = peer ∧ answer = .delivered
    · rw [if_pos ⟨mover, hp⟩, if_pos hp]
      rfl
    · rw [if_neg fun h' => hp h'.2, if_neg hp]
      rfl
  cases answer with
  | delivered | gone =>
    refine h.still (.inr ⟨_, _, rfl⟩) ?_ (by rw [same]) (.inl rfl) hstarted ?_ ?_ htaken opened
    · rintro _ _ ⟨rfl, rfl⟩
      rw [same, List.append_nil]
      exact ⟨hawaited, nodup⟩
    · rw [hpassed]
      exact Nat.le_refl _
    · intro peer
      rw [hsent]
      by_cases hp : next = peer
      · subst hp
        simp [Stage.next, Stage.releasing, notMem]
      · have hne : peer ≠ next := fun h' => hp h'.symm
        by_cases hm : peer ∈ heard <;> simp [Stage.next, Stage.releasing, hp, hne, hm]
  | failed error =>
    refine h.still (.inl rfl) nofun (by rw [same]) (.inl rfl) hstarted ?_ ?_ htaken opened
    · rw [hpassed]
      simp [Stage.next, Stage.isMet]
    · intro peer
      rw [hsent]
      simp [Stage.next, Stage.releasing]

theorem hear (h : Presides size steps net stage) {step : Step α} {next : Rank}
    {awaited heard : List Rank} {answer : Taken} (hstage : stage = .meeting (next :: awaited) heard)
    (mover : step.move.who = .coordinator)
    (hanswered : step.answered? = some ⟨.take next .barrierEnter, answer⟩)
    (hseen : step.seen = []) (hafter : step.after = net') (star' : IsStar size net')
    (fits : Answered.Fits (.take next .barrierEnter) answer)
    (opened : ∀ peer, net'.isOpen .coordinator peer = true →
      net.isOpen .coordinator peer = true)
    (gone : answer = .gone → net'.isOpen .coordinator next = false) :
    Presides size (steps ++ [step]) net' (stage.next (.take next .barrierEnter) answer) := by
  subst hstage
  obtain ⟨hawaited, nodup⟩ := h.awaiting _ _ rfl
  have hstarted : barriersStarted (steps ++ [step]) .coordinator =
      barriersStarted steps .coordinator := by
    rw [barriersStarted_next mover, hseen]
    rfl
  have hpassed : barriersPassed (steps ++ [step]) .coordinator =
      barriersPassed steps .coordinator := by
    rw [barriersPassed_next mover, hseen]
    rfl
  have hsent : ∀ peer, sent (steps ++ [step]) .coordinator peer = sent steps .coordinator peer := by
    intro peer
    refine sent_other (fun frame result ha => ?_) _
    rw [hanswered] at ha
    cases ha
  have htaken : ∀ peer, (taken steps .coordinator peer).count .barrierEnter ≤
      (taken (steps ++ [step]) .coordinator peer).count .barrierEnter :=
    fun peer => count_taken_le mover peer .barrierEnter
  -- One more enter frame was taken from the one that was heard, unless it is gone.
  have hnext : (∀ error, answer ≠ .failed error) → net'.isOpen .coordinator next = true →
      (taken steps .coordinator next).count .barrierEnter + 1 ≤
        (taken (steps ++ [step]) .coordinator next).count .barrierEnter := by
    intro sound ho
    cases answer with
    | frame frame =>
      obtain rfl : frame = .barrierEnter := by cases frame <;> first | rfl | cases fits
      rw [taken_take hanswered, if_pos ⟨mover, rfl⟩, List.count_append]
      exact Nat.le_refl _
    | gone =>
      rw [gone rfl] at ho
      cases ho
    | failed error => exact absurd rfl (sound error)
  have hheard : (∀ error, answer ≠ .failed error) → ∀ peer ∈ Rank.members size,
      net'.isOpen .coordinator peer = true → peer ∉ awaited →
      (rounds steps).ended.length + 1 ≤
        (taken (steps ++ [step]) .coordinator peer).count .barrierEnter := by
    intro sound peer hm ho hn
    have hh := h.heard peer hm (opened peer ho)
    by_cases hp : peer = next
    · subst hp
      have hone := hnext sound ho
      omega
    · have hne : ¬((Stage.meeting (next :: awaited) heard).awaited = [] ∨
          peer ∈ (Stage.meeting (next :: awaited) heard).awaited) := by
        simp [Stage.awaited, hp, hn]
      rw [if_neg hne] at hh
      exact Nat.le_trans hh (htaken peer)
  have hround : (∀ error, answer ≠ .failed error) → rounds (steps ++ [step]) =
      (rounds steps).await awaited (net'.topology .coordinator).departedPeers := by
    intro sound
    rw [rounds_next, Rounds.after_heard mover hseen hanswered sound, hafter, hawaited]
    rfl
  have hrun := h.started
  have hpass := h.passed
  have hrel : ∀ peer, (sent (steps ++ [step]) .coordinator peer).count .barrierRelease ≤
      (rounds steps).ended.length := by
    intro peer
    have hr := h.released peer
    rw [hsent]
    omega
  cases answer with
  | failed error =>
    have hround : rounds (steps ++ [step]) = ⟨[], (rounds steps).ended⟩ := by
      rw [rounds_next, Rounds.after_failed mover hseen hanswered]
    refine h.still (.inl rfl) nofun (by rw [hround]) (.inl rfl) ?_ ?_ ?_ htaken opened
    · exact Nat.le_of_eq hstarted.symm
    · rw [hpassed]
      exact Nat.le_refl _
    · intro peer
      rw [hsent]
      exact Nat.le_refl _
  | frame frame =>
    have perm : (heard ++ [next] ++ awaited).Nodup := by
      rwa [List.append_assoc]
    refine h.await (hround nofun) perm ?_ ?_ hrel htaken opened (hheard nofun)
      fun peer hm => star'.recorded hm
    · rw [hstarted]
      exact hrun
    · rw [hpassed]
      exact hpass
  | gone =>
    have fewer : (heard ++ awaited).Nodup :=
      ((List.sublist_cons_self next awaited).append_left heard).nodup nodup
    refine h.await (hround nofun) fewer ?_ ?_ hrel htaken opened (hheard nofun)
      fun peer hm => star'.recorded hm
    · rw [hstarted]
      exact hrun
    · rw [hpassed]
      exact hpass

theorem other (h : Presides size steps net stage) {step : Step α}
    (mover : step.move.who ≠ .coordinator)
    (opened : ∀ peer, net'.isOpen .coordinator peer = net.isOpen .coordinator peer) :
    Presides size (steps ++ [step]) net' stage := by
  have same : rounds (steps ++ [step]) = rounds steps := by
    rw [rounds_next, Rounds.after_other mover]
  have hseen : seenOf (steps ++ [step]) .coordinator = seenOf steps .coordinator :=
    seenOf_other mover
  refine h.still h.side ?_ (by rw [same]) (.inr rfl) ?_ ?_ (fun peer => ?_) (fun peer => ?_)
    fun peer ho => (opened peer).symm.trans ho
  · rw [same]
    exact h.awaiting
  · exact Nat.le_of_eq (by rw [barriersStarted, barriersStarted, hseen])
  · exact Nat.le_of_eq (by rw [barriersPassed, barriersPassed, hseen])
  · exact Nat.le_of_eq (by rw [(history_other mover peer).1])
  · exact Nat.le_of_eq (by rw [(history_other mover peer).2])

theorem next (h : Presides size steps net stage) (fidelity : Fidelity size steps net)
    {move : Move} {seen : List Event} (star' : IsStar size net')
    (hm : net.Moved move net' seen (Step.mk net move net' seen).answered?)
    (mover : move.who = .coordinator) (hs : net.InStage .coordinator stage) :
    ∃ stage', net'.InStage .coordinator stage' ∧
      Presides size (steps ++ [⟨net, move, net', seen⟩]) net' stage' := by
  have opened : ∀ peer, net'.isOpen .coordinator peer = true →
      net.isOpen .coordinator peer = true := by
    intro peer ho
    rw [← mover] at ho ⊢
    exact fidelity.isOpen_own hm ho
  generalize hans : (Step.mk net move net' seen).answered? = answered at hm
  obtain ⟨c, stage', hc, hs', advance⟩ := advances fidelity hm (mover.symm ▸ hs)
  rw [mover] at hc hs'
  refine ⟨stage', hs', ?_⟩
  cases advance with
  | @start call idle =>
    subst idle
    have hshape := fidelity.star.shape hc
    have hub : c.topology.isSpoke = false := congrArg (fun shape => shape.2.2.2) hshape
    cases call with
    | barrier =>
      have hfirst : Stage.first c .barrier = .meeting c.topology.livePeers [] := by
        simp [Stage.first, hub]
      have hlinks : net.topology .coordinator = c.topology := by rw [topology, hc]; rfl
      have hsilent : Silent steps ⟨net, move, net', [.started .barrier]⟩ := silent_none hans
      rw [hfirst, ← hlinks]
      refine h.await ?_ fidelity.star.live.1 ?_ ?_ (fun peer => ?_) (fun peer => ?_) opened
        (fun peer hm ho hn => ?_) fun peer hm => star'.recorded hm
      · rw [rounds_next, Rounds.after_start mover rfl]
      · have hrun := h.started
        rw [barriersStarted_next mover]
        exact Nat.succ_le_succ (Nat.le_of_add_right_le hrun)
      · have hpass := h.passed
        rw [barriersPassed_next mover]
        exact hpass
      · have hr := h.released peer
        rw [(hsilent _ _).1]
        exact Nat.le_of_add_right_le hr
      · exact Nat.le_of_eq (by rw [(hsilent _ _).2])
      · exact absurd (fidelity.star.live.2 peer (opened peer ho)) hn
    | broadcast | send | recv | departed | finalize =>
      exact h.quiet mover hans rfl (.inl rfl) (Nat.le_refl _) opened
  | act idle neither nor =>
    subst idle
    refine h.quiet mover hans ?_ (.inl rfl) ?_ opened
    · simp [neither]
    · simp [nor, Stage.isMet]
  | @finish call answer finished =>
    refine h.quiet mover hans rfl (.inl rfl) ?_ opened
    by_cases passes : (Event.finished call answer).passesBarrier = true
    · rcases ends_of_passes finished passes with rfl | rfl
      · rcases h.side with hside | ⟨_, _, hside⟩ <;> cases hside
      · simp [passes, Stage.isMet]
    · simp [passes, Stage.isMet]
  | wait => exact h.quiet mover hans rfl (.inr rfl) (by simp) opened
  | quit => exact h.quiet mover hans rfl (.inl rfl) (by simp [Stage.isMet]) opened
  | @exchange exchange answer due fits =>
    by_cases free : (∃ entry, exchange = .note entry) ∨ stage = .outside
    · have same : stage.next exchange answer = stage := by
        rcases free with ⟨entry, rfl⟩ | rfl
        · exact stage.next_note entry
        · cases exchange <;> rfl
      rw [same]
      exact h.aside mover hans rfl free due opened
    · rcases h.side with hside | ⟨awaited, heard, hside⟩
      · exact absurd (.inr hside) free
      · subst hside
        cases exchange with
        | note entry => exact absurd (.inl ⟨entry, rfl⟩) free
        | hangUp => cases awaited <;> cases heard <;> exact due.elim
        | send peer frame =>
          cases awaited with
          | cons => exact due.elim
          | nil =>
            cases heard with
            | nil => exact due.elim
            | cons next heard =>
              obtain ⟨rfl, rfl⟩ := due
              exact h.release rfl mover hans rfl opened
        | take peer wanted =>
          cases awaited with
          | nil => cases heard <;> exact due.elim
          | cons next awaited =>
            obtain ⟨rfl, rfl⟩ := due
            refine h.hear rfl mover hans rfl rfl star' fits opened fun hg => ?_
            subst hg
            rw [← mover]
            exact fidelity.isOpen_gone hm

end Presides

end FaultDrill.Network
