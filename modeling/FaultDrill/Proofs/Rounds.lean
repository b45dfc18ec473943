import FaultDrill.Proofs.Fidelity
import FaultDrill.Proofs.Gate
set_option autoImplicit false

namespace FaultDrill

def Event.startsBarrier : Event → Bool
  | .started .barrier => true
  | _ => false

def Event.passesBarrier : Event → Bool
  | .finished .barrier (.ok ()) => true
  | _ => false

namespace Network

variable {α : Type}

def barriersStarted (steps : List (Step α)) (who : Rank) : Nat :=
  (seenOf steps who).countP Event.startsBarrier

def barriersPassed (steps : List (Step α)) (who : Rank) : Nat :=
  (seenOf steps who).countP Event.passesBarrier

def topology (net : Network α) (who : Rank) : Topology :=
  (net.communicator? who).elim .alone Communicator.topology

/-- The collecting loops of the coordinator: those whom the one that runs has still to hear, and
for each one that has run to its end those who were recorded as departed then. -/
structure Rounds where
  awaited : List Rank
  ended : List (List Rank)

namespace Rounds

def await (rounds : Rounds) (awaited departed : List Rank) : Rounds :=
  if awaited = [] then ⟨[], rounds.ended ++ [departed]⟩ else ⟨awaited, rounds.ended⟩

def after (rounds : Rounds) (step : Step α) : Rounds :=
  let departed := (step.after.topology .coordinator).departedPeers
  if step.move.who ≠ .coordinator then rounds
  else if step.seen.any Event.startsBarrier then
    rounds.await (step.before.topology .coordinator).livePeers departed
  else
    match step.answered? with
    | some ⟨.take _ .barrierEnter, .failed _⟩ => ⟨[], rounds.ended⟩
    | some ⟨.take _ .barrierEnter, .frame _⟩ | some ⟨.take _ .barrierEnter, .gone⟩ =>
      rounds.await rounds.awaited.tail departed
    | _ => rounds

section After

variable {rounds : Rounds} {step : Step α}

theorem after_other (mover : step.move.who ≠ .coordinator) : rounds.after step = rounds := by
  rw [after, if_pos mover]

theorem after_start (mover : step.move.who = .coordinator)
    (hseen : step.seen = [.started .barrier]) :
    rounds.after step = rounds.await (step.before.topology .coordinator).livePeers
      (step.after.topology .coordinator).departedPeers := by
  simp [after, mover, hseen, Event.startsBarrier]

theorem after_quiet (hseen : step.seen.any Event.startsBarrier = false)
    (hanswered : ∀ peer taken, step.answered? ≠ some ⟨.take peer .barrierEnter, taken⟩) :
    rounds.after step = rounds := by
  unfold after
  split
  · rfl
  · rw [if_neg (by simp [hseen])]
    split
    · rename_i ha
      exact absurd ha (hanswered _ _)
    · rename_i ha
      exact absurd ha (hanswered _ _)
    · rename_i ha
      exact absurd ha (hanswered _ _)
    · rfl

theorem after_failed {peer : Rank} {error : ComponentError}
    (mover : step.move.who = .coordinator) (hseen : step.seen = [])
    (hanswered : step.answered? = some ⟨.take peer .barrierEnter, .failed error⟩) :
    rounds.after step = ⟨[], rounds.ended⟩ := by
  simp [after, mover, hseen, hanswered]

theorem after_heard {peer : Rank} {taken : Taken} (mover : step.move.who = .coordinator)
    (hseen : step.seen = [])
    (hanswered : step.answered? = some ⟨.take peer .barrierEnter, taken⟩)
    (sound : ∀ error, taken ≠ .failed error) :
    rounds.after step = rounds.await rounds.awaited.tail
      (step.after.topology .coordinator).departedPeers := by
  cases taken with
  | frame | gone => simp [after, mover, hseen, hanswered]
  | failed error => exact absurd rfl (sound error)

end After

end Rounds

def rounds (steps : List (Step α)) : Rounds := steps.foldl Rounds.after ⟨[], []⟩

theorem rounds_next (steps : List (Step α)) (step : Step α) :
    rounds (steps ++ [step]) = (rounds steps).after step := by
  rw [rounds, List.foldl_append]
  rfl

def InStage (net : Network α) (who : Rank) (stage : Stage) : Prop :=
  match net.activity? who with
  | some (.calling call rest _) => rest.Keeps Stage.contract (Stage.ends call) stage
  | _ => stage = .outside

/-- What a step of a participant does to its stage. -/
inductive Advances (c : Communicator) (stage : Stage) :
    List Event → Option Answered → Stage → Prop where
  | start {call : Call} (idle : stage = .outside) :
      Advances c stage [.started call] none (Stage.first c call)
  | act {event : Event} (idle : stage = .outside) (neither : event.startsBarrier = false)
      (nor : event.passesBarrier = false) : Advances c stage [event] none .outside
  | finish {call : Call} {answer : call.Answer} (finished : Stage.ends call stage answer) :
      Advances c stage [.finished call answer] none .outside
  | wait : Advances c stage [] none stage
  | exchange {exchange : Exchange} {answer : exchange.Answer} (due : stage.due exchange)
      (fits : Answered.Fits exchange answer) :
      Advances c stage (noteOf exchange) (some ⟨exchange, answer⟩) (stage.next exchange answer)
  | quit : Advances c stage [] none .outside

theorem inStage_of_activity {net : Network α} {who : Rank} {call : Call}
    {rest : Conduct call.Answer} {next : call.Answer → Program Action.interface α}
    (h : net.activity? who = some (.calling call rest next)) (stage : Stage) :
    net.InStage who stage ↔ rest.Keeps Stage.contract (Stage.ends call) stage := by
  rw [InStage, h]

theorem inStage_running {net : Network α} {who : Rank} {rest : Program Action.interface α}
    (h : net.activity? who = some (.running rest)) (stage : Stage) :
    net.InStage who stage ↔ stage = .outside := by
  rw [InStage, h]

theorem inStage_left {net : Network α} {who : Rank} {result : Option α}
    (h : net.activity? who = some (.left result)) (stage : Stage) :
    net.InStage who stage ↔ stage = .outside := by
  rw [InStage, h]

theorem inStage_congr {net net' : Network α} {who : Rank}
    (h : net'.activity? who = net.activity? who) (stage : Stage) :
    net'.InStage who stage ↔ net.InStage who stage := by
  rw [InStage, InStage, h]

theorem advances {size : UInt32} {steps : List (Step α)} {net net' : Network α} {move : Move}
    {seen : List Event} {answered : Option Answered} {stage : Stage}
    (h : Fidelity size steps net) (hm : net.Moved move net' seen answered)
    (hs : net.InStage move.who stage) :
    ∃ c stage', net.communicator? move.who = some c ∧ net'.InStage move.who stage' ∧
      Advances c stage seen answered stage' := by
  cases hm with
  | @proceed who choice _ _ _ proceeds =>
    cases proceeds with
    | @start call next c doing has =>
      have idle := (inStage_running doing stage).mp hs
      refine ⟨c, Stage.first c call, has, ?_, .start idle⟩
      rw [Move.who, inStage_of_activity (activity_setActivity_self doing _)]
      exact c.conduct_keeps call
    | @act action next answer event doing comes =>
      have idle := (inStage_running doing stage).mp hs
      obtain ⟨c, hc⟩ := communicator_of_activity doing
      refine ⟨c, .outside, hc, ?_, .act idle ?_ ?_⟩
      · exact (inStage_running (activity_setActivity_self doing _) _).mpr rfl
      · cases action <;> cases comes <;> rfl
      · cases action <;> cases comes <;> rfl
    | @finish call answer next doing =>
      obtain ⟨c, hc⟩ := communicator_of_activity doing
      refine ⟨c, .outside, hc, ?_, .finish ((inStage_of_activity doing stage).mp hs)⟩
      exact (inStage_running (activity_setActivity_self doing _) _).mpr rfl
    | @wait call exchange rest next _ doing comes =>
      obtain ⟨c, hc⟩ := communicator_of_activity doing
      refine ⟨c, stage, hc, ?_, .wait⟩
      have same := (h.exchanged comes).alike.activity
      rwa [inStage_congr (congrFun same _)]
    | @exchange call exchange rest next answer after doing comes =>
      obtain ⟨c, hc⟩ := communicator_of_activity doing
      obtain ⟨due, follows⟩ := (inStage_of_activity doing stage).mp hs
      have hx := h.exchanged comes
      have doing' : after.activity? who = some _ := (congrFun hx.alike.activity who).trans doing
      refine ⟨c, stage.next exchange answer, hc, ?_, .exchange due hx.fits⟩
      rw [Move.who, inStage_of_activity (activity_setActivity_self doing' _)]
      exact follows answer _ rfl
  | @leave who result doing =>
    obtain ⟨c, hc⟩ := communicator_of_activity doing
    refine ⟨c, .outside, hc, ?_, .quit⟩
    have doing' := (congrFun (alike_hangUp net who).activity who).trans doing
    exact (inStage_left (activity_setActivity_self doing' _) _).mpr rfl
  | @crash who written there =>
    obtain ⟨site, hsite⟩ := Option.isSome_iff_exists.mp there
    have doing : net.activity? who = some site.activity := by rw [activity?, hsite]; rfl
    obtain ⟨c, hc⟩ := communicator_of_activity doing
    refine ⟨c, .outside, hc, ?_, .quit⟩
    have alike := (carryPart_leaves net who written).1.trans (alike_hangUp _ who)
    have doing' := (congrFun alike.activity who).trans doing
    exact (inStage_left (activity_setActivity_self doing' _) _).mpr rfl

section Counting

variable {steps : List (Step α)} {step : Step α} {who : Rank}

theorem barriersStarted_next (mover : step.move.who = who) :
    barriersStarted (steps ++ [step]) who =
      barriersStarted steps who + step.seen.countP Event.startsBarrier := by
  rw [barriersStarted, seenOf_next, if_pos mover, List.countP_append]
  rfl

theorem barriersStarted_le (mover : step.move.who = who) :
    barriersStarted steps who ≤ barriersStarted (steps ++ [step]) who := by
  rw [barriersStarted_next mover]
  exact Nat.le_add_right _ _

theorem barriersPassed_next (mover : step.move.who = who) :
    barriersPassed (steps ++ [step]) who =
      barriersPassed steps who + step.seen.countP Event.passesBarrier := by
  rw [barriersPassed, seenOf_next, if_pos mover, List.countP_append]
  rfl

theorem count_sent_next (mover : step.move.who = who) (peer : Rank) (frame : Frame) :
    (sent (steps ++ [step]) who peer).count frame = (sent steps who peer).count frame +
      (step.answered?.bind (Step.sentTo? peer)).toList.count frame := by
  rw [sent_next, if_pos mover, List.count_append]

theorem count_taken_next (mover : step.move.who = who) (peer : Rank) (frame : Frame) :
    (taken (steps ++ [step]) who peer).count frame = (taken steps who peer).count frame +
      (step.answered?.bind (Step.takenFrom? peer)).toList.count frame := by
  rw [taken_next, if_pos mover, List.count_append]

theorem count_taken_le (mover : step.move.who = who) (peer : Rank) (frame : Frame) :
    (taken steps who peer).count frame ≤ (taken (steps ++ [step]) who peer).count frame := by
  rw [count_taken_next mover]
  exact Nat.le_add_right _ _

end Counting

theorem noteOf_startsBarrier (exchange : Exchange) :
    (noteOf exchange).countP Event.startsBarrier = 0 := by
  cases exchange <;> rfl

theorem noteOf_passesBarrier (exchange : Exchange) :
    (noteOf exchange).countP Event.passesBarrier = 0 := by
  cases exchange <;> rfl

theorem ends_of_passes {call : Call} {stage : Stage} {answer : call.Answer}
    (finished : Stage.ends call stage answer)
    (passes : (Event.finished call answer).passesBarrier = true) :
    stage = .passed ∨ stage = .meeting [] [] := by
  cases call with
  | barrier =>
    cases answer with
    | ok => exact finished rfl
    | error => cases passes
  | broadcast | send | recv | departed | finalize => cases passes

end Network
end FaultDrill
