import FaultDrill.Proofs.Attendance
set_option autoImplicit false

namespace FaultDrill.Network

variable {α : Type}

/-- What the counts come to in a group at any moment. -/
structure Counted (size : UInt32) (steps : List (Step α)) (net : Network α) : Prop where
  fidelity : Fidelity size steps net
  members : ∀ who ∈ Rank.members size, ∃ stage, net.InStage who stage ∧ Attends steps who stage
  coordinator : ∃ stage, net.InStage .coordinator stage ∧ Presides size steps net stage

theorem Counted.start {size : UInt32} {program : Rank → Program Action.interface α}
    {net : Network α} (h : Starts size program net) : Counted size [] net := by
  have idle : ∀ who ∈ Rank.everybody size, net.InStage who .outside := by
    intro who hw
    have ha := h.activity who
    rw [if_pos hw] at ha
    exact (inStage_running ha _).mpr rfl
  refine ⟨.start h, fun who hw => ?_, .outside, idle _ (Rank.coordinator_mem_everybody _), ?_⟩
  · exact ⟨.outside, idle _ (Rank.mem_everybody.mpr (.inr hw)), nofun, Nat.le_refl _, Nat.le_refl _⟩
  · refine ⟨.inl rfl, nofun, Nat.le_refl _, Nat.le_refl _, fun peer => ?_, fun peer _ _ => ?_, ?_⟩
    · simp [Stage.releasing, sent, exchanges]
    · exact Nat.le_refl _
    · intro k departed hk
      cases hk

theorem Execution.counted {size : UInt32} {program : Rank → Program Action.interface α}
    {steps : List (Step α)} {start net : Network α} (begins : Bootstrapped size program start)
    (run : Execution start steps net) : Counted size steps net := by
  induction run with
  | start => exact .start begins.starts
  | @next steps net net' move seen earlier moves ih =>
    have fidelity := (earlier.next moves).fidelity begins
    have hm := moved moves
    refine ⟨fidelity, fun who hw => ?_, ?_⟩
    · obtain ⟨stage, hs, h⟩ := ih.members who hw
      by_cases mover : move.who = who
      · obtain ⟨c, stage', hc, hs', advance⟩ := advances ih.fidelity hm (mover.symm ▸ hs)
        rw [mover] at hc hs'
        have hshape := ih.fidelity.star.shape hc
        have spoke : c.topology.isSpoke = true := by
          have hspoke : c.topology.isSpoke = !who.isCoordinator :=
            congrArg (fun shape => shape.2.2.2) hshape
          rw [hspoke, Rank.isCoordinator_member hw]
          rfl
        exact ⟨stage', hs', h.next mover rfl rfl spoke advance⟩
      · have hf := ih.fidelity.frame hm (Ne.symm mover)
        exact ⟨stage, (inStage_congr hf.1 stage).mpr hs, h.other mover⟩
    · obtain ⟨stage, hs, h⟩ := ih.coordinator
      by_cases mover : move.who = .coordinator
      · exact h.next ih.fidelity fidelity.star hm mover hs
      · have hf := ih.fidelity.frame hm (Ne.symm mover)
        exact ⟨stage, (inStage_congr hf.1 stage).mpr hs, h.other mover hf.2⟩

theorem accepts_barrierEnter : Wanted.barrierEnter.accepts = (· == Frame.barrierEnter) := by
  funext frame
  cases frame <;> rfl

theorem accepts_barrierRelease : Wanted.barrierRelease.accepts = (· == Frame.barrierRelease) := by
  funext frame
  cases frame <;> rfl

theorem Counted.passed_le {size : UInt32} {steps : List (Step α)} {net : Network α}
    (h : Counted size steps net) {who : Rank} (hw : who ∈ Rank.everybody size) :
    barriersPassed steps who ≤ (rounds steps).ended.length := by
  obtain ⟨stage, -, hub⟩ := h.coordinator
  rcases Rank.mem_everybody.mp hw with rfl | hm
  · exact Nat.le_of_add_right_le hub.passed
  · obtain ⟨_, -, member⟩ := h.members who hm
    have hpeer := Rank.coordinator_mem_peers hm
    have htaken := h.fidelity.countP_taken_le hw hpeer .barrierRelease
    rw [accepts_barrierRelease, ← List.count_eq_countP, ← List.count_eq_countP] at htaken
    have hpassed := member.released
    have hreleased := hub.released who
    omega

/-- Whenever a participant has passed `k + 1` barriers, the coordinator has ended as many collecting
loops, and every other participant has started as many barriers or was recorded as departed when
the last of those loops ended. -/
theorem barrier_safety {size : UInt32} {program : Rank → Program Action.interface α}
    {steps : List (Step α)} {start net : Network α} (begins : Bootstrapped size program start)
    (run : Execution start steps net) {who other : Rank} (hw : who ∈ Rank.everybody size)
    (ho : other ∈ Rank.everybody size) (hne : who ≠ other) {k : Nat}
    (passed : k < barriersPassed steps who) :
    ∃ departed, (rounds steps).ended[k]? = some departed ∧
      (other ∈ departed ∨ k < barriersStarted steps other) := by
  have h := run.counted begins
  obtain ⟨stage, -, hub⟩ := h.coordinator
  have hk : k < (rounds steps).ended.length := Nat.lt_of_lt_of_le passed (h.passed_le hw)
  refine ⟨_, List.getElem?_eq_getElem hk, ?_⟩
  rcases Rank.mem_everybody.mp ho with rfl | hm
  · have hrun := hub.started
    exact .inr (by omega)
  · rcases hub.history k _ (List.getElem?_eq_getElem hk) other hm with hd | hd
    · exact .inl hd
    · obtain ⟨_, -, member⟩ := h.members other hm
      have htaken := h.fidelity.countP_taken_le (Rank.coordinator_mem_everybody _) hm .barrierEnter
      rw [accepts_barrierEnter, ← List.count_eq_countP, ← List.count_eq_countP] at htaken
      have hentered := member.entered
      exact .inr (by omega)

def twoMeet : Network Unit :=
  formed 2 fun _ => .ask (.call .barrier) fun _ => .done ()

theorem barrier_safety_two : ∃ steps net, Execution twoMeet steps net ∧
    0 < barriersPassed steps ⟨1⟩ ∧ ∃ departed, (rounds steps).ended[0]? = some departed ∧
      (.coordinator ∈ departed ∨ 0 < barriersStarted steps .coordinator) := by
  let go (who : Rank) : Move := .proceed who ⟨true, .survived, none⟩
  let moves := [go ⟨1⟩, go ⟨1⟩, go ⟨0⟩, go ⟨0⟩, go ⟨0⟩, go ⟨0⟩, go ⟨1⟩, go ⟨1⟩]
  have passes : ((twoMeet.execute? moves).any fun result =>
      decide (0 < barriersPassed result.1 ⟨1⟩)) = true := by
    decide +kernel
  obtain ⟨⟨steps, net⟩, he, hp⟩ := (Option.any_eq_true _ _).mp passes
  have run := (execution_of_execute he).1
  have passed : 0 < barriersPassed steps ⟨1⟩ := of_decide_eq_true hp
  exact ⟨steps, net, run, passed,
    barrier_safety .formed run (by decide) (by decide) (by decide) passed⟩

end FaultDrill.Network
