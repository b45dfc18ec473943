import FaultDrill.Proofs.Tolerance
set_option autoImplicit false

namespace FaultDrill

theorem Schedule.plainGroup_congr {size : UInt32} {greeting : Rank → String}
    {requested other : Rank → Option UInt64} (same : other .coordinator = requested .coordinator) :
    plainGroup size greeting other = plainGroup size greeting requested := by
  funext rank
  by_cases hr : rank.isCoordinator = true
  · obtain rfl := Rank.isCoordinator_iff.mp hr
    rw [plainGroup, plainGroup, same]
  · simp [plainGroup, plain, agreeOnSleep, hr]

namespace Network

variable {size : UInt32} {greeting : Rank → String} {seconds : UInt64}
  {steps : List (Step (Except GroupError SleepReport))}
  {net : Network (Except GroupError SleepReport)} {places : Rank → Situation}

abbrev Plain (size : UInt32) (greeting : Rank → String) (seconds : UInt64)
    (steps : List (Step (Except GroupError SleepReport)))
    (net : Network (Except GroupError SleepReport)) (places : Rank → Situation) : Prop :=
  Coherent (.plain size greeting seconds)
    (fun r s => Plan.PlainEnds size greeting seconds s r) steps net places

theorem line_said (text : String) (payload : List UInt8) (turn : Nat) :
    ((Dialogue.opening text payload).said .spoke 0 turn).filter
        (Wanted.data Frame.textTag).accepts =
      if 2 < turn then [(Dialogue.line text).frame] else [] := by
  match turn with
  | 0 | 1 | 2 | 3 | 4 | 5 => rfl
  | turn + 6 =>
    have hall : (Dialogue.opening text payload).take (turn + 6) = Dialogue.opening text payload :=
      List.take_of_length_le (Nat.le_add_left 6 turn)
    rw [if_pos (by omega), Dialogue.said, hall]
    rfl

namespace Plain

variable (h : Plain size greeting seconds steps net places) {m : Rank}
  (hm : m ∈ Rank.members size)
include h

section Member
include hm

theorem greetingSent_iff :
    GreetingSent steps greeting m ↔ 2 < ((places m).standing .coordinator).turn := by
  have said := h.said m (Rank.mem_everybody.mpr (.inr hm)) .coordinator
    (Rank.coordinator_mem_peers hm)
  have hside : Plan.side m = .spoke := by
    rw [Plan.side, Rank.isCoordinator_member hm]
    rfl
  rw [Plan.between_member hm, hside] at said
  have lines : linesSent steps m = if 2 < ((places m).standing .coordinator).turn
      then [(Dialogue.line (greeting m)).frame] else [] := by
    rw [linesSent, said]
    exact line_said _ _ _
  rw [GreetingSent, lines]
  by_cases hturn : 2 < ((places m).standing .coordinator).turn <;> simp [hturn]

theorem greeted (past : 2 < ((places .coordinator).standing m).turn) :
    GreetingSent steps greeting m :=
  (h.greetingSent_iff hm).mpr
    (h.heard (i := 2) (Rank.coordinator_mem_everybody _) hm past rfl rfl)

/-- A greeting that the coordinator has missed was not sent, and never will be. -/
theorem ungreeted (lost : ((places .coordinator).standing m).status = .lost)
    (turn : ((places .coordinator).standing m).turn ≤ 2) : ¬GreetingSent steps greeting m := by
  have early : ((places .coordinator).standing m).turn <
      ((Plan.plain size greeting seconds).between .coordinator m).length :=
    Nat.lt_of_le_of_lt turn (by decide : 2 < 6)
  have behind := (h.missing (Rank.coordinator_mem_everybody _) hm lost early).2.1
  rw [h.greetingSent_iff hm]
  omega

end Member

theorem report_eq {who : Rank} {report : SleepReport}
    (has : net.result? who = some (.ok report)) :
    report.rank = who ∧ report.sleepSeconds = seconds := by
  obtain ⟨before, ends, -⟩ := h.concluded has
  cases ends with
  | coordinator ends => cases ends with | completed => exact ⟨rfl, rfl⟩
  | member _ ends => cases ends with | completed => exact ⟨rfl, rfl⟩

theorem coordinator_result {result : Except GroupError SleepReport}
    (has : net.result? .coordinator = some result) :
    (result = .ok ⟨.coordinator, seconds, (Rank.everybody size).map greeting⟩ ∧
      ∀ m ∈ Rank.members size, GreetingSent steps greeting m) ∨
    ∃ r ∈ Rank.members size, result = .error (.peerDeparted r) ∧ ¬GreetingSent steps greeting r ∧
      ∀ m ∈ Rank.members size, m.index < r.index → GreetingSent steps greeting m := by
  obtain ⟨before, ends, -, standing⟩ := h.concluded has
  cases ends with
  | member mem => exact absurd mem (Rank.coordinator_not_mem size)
  | coordinator ends =>
    cases ends with
    | completed _ heard =>
      refine .inl ⟨rfl, fun m hm => h.greeted hm ?_⟩
      have three := heard m hm
      have turn := (standing m).1
      omega
    | @departed earlier later r split heard lost turn =>
      have hr : r ∈ Rank.members size := by
        rw [split]
        exact List.mem_append_right _ List.mem_cons_self
      refine .inr ⟨r, hr, rfl, h.ungreeted hr ((standing r).2 lost) ?_, fun m hm below => ?_⟩
      · rw [(standing r).1]
        exact turn
      · refine h.greeted hm ?_
        have three : (before.standing m).turn = 3 :=
          congrArg Standing.turn (heard m (Rank.mem_before split hm below))
        have turn := (standing m).1
        omega

end Plain

/-- Whatever the members request and wherever they crash: whoever's run succeeds has slept for the
coordinator's duration, and everybody does the same whatever the members request. The coordinator's
run succeeds, with the greetings of everybody in rank order, exactly if every member has sent its
own completely; else it names the lowest member that has not. Once nobody can go on, the run of
everybody that has not crashed has ended. -/
theorem plain_group_agrees {requested : Rank → Option UInt64}
    {start : Network (Except GroupError SleepReport)}
    (begins : Bootstrapped size (Schedule.plainGroup size greeting requested) start)
    (run : Execution start steps net) (sound : ∀ step ∈ steps, step.move.IsSound)
    (stays : ¬Crashed steps .coordinator) :
    (∀ other, other .coordinator = requested .coordinator →
      Schedule.plainGroup size greeting other = Schedule.plainGroup size greeting requested) ∧
    (∀ who report, net.result? who = some (.ok report) →
      report.rank = who ∧ report.sleepSeconds = (requested .coordinator).getD 0) ∧
    (∀ result, net.result? .coordinator = some result →
      ((∃ report, result = .ok report) ↔
        ∀ m ∈ Rank.members size, GreetingSent steps greeting m) ∧
      (∀ report, result = .ok report → report.greetings = (Rank.everybody size).map greeting) ∧
      ∀ error, result = .error error → ∃ r ∈ Rank.members size, error = .peerDeparted r ∧
        ¬GreetingSent steps greeting r ∧
        ∀ m ∈ Rank.members size, m.index < r.index → GreetingSent steps greeting m) ∧
    (AtRest size net → (net.result? .coordinator).isSome ∧
      ∀ who ∈ Rank.everybody size, ¬Crashed steps who → (net.result? who).isSome) := by
  obtain ⟨places, h⟩ : ∃ places,
      Plain size greeting ((requested .coordinator).getD 0) steps net places :=
    run.coherent begins sound fun r hr => Plan.plain_fulfils hr
  have ends : AtRest size net → ∀ who ∈ Rank.everybody size, ¬Crashed steps who →
      (net.result? who).isSome := by
    intro rest who hw here
    obtain ⟨result, left⟩ := (h.rest (run.fidelity begins) rest hw).resolve_left here
    rw [result_left left]
    rfl
  refine ⟨fun other same => Schedule.plainGroup_congr same, fun who report has => h.report_eq has,
    fun result has => ?_,
    fun rest => ⟨ends rest _ (Rank.coordinator_mem_everybody size) stays, ends rest⟩⟩
  rcases h.coordinator_result has with ⟨rfl, sent⟩ | ⟨r, hr, rfl, missing, lower⟩
  · refine ⟨⟨fun _ => sent, fun _ => ⟨_, rfl⟩⟩, ?_, nofun⟩
    rintro report ⟨⟩
    rfl
  · refine ⟨⟨nofun, fun sent => absurd (sent r hr) missing⟩, nofun, ?_⟩
    rintro error ⟨⟩
    exact ⟨r, hr, rfl, missing, lower⟩

def threeSleep : Network (Except GroupError SleepReport) :=
  formed 3 (Schedule.plainGroup 3 (fun _ => "hello") fun r =>
    some (if r = .coordinator then 1 else 9))

theorem plain_group_agrees_three : ∃ steps net, Execution threeSleep steps net ∧
    Crashed steps ⟨1⟩ ∧ GreetingSent steps (fun _ => "hello") ⟨1⟩ ∧
    (∃ report, net.result? .coordinator = some (.ok report) ∧ report.sleepSeconds = 1 ∧
      report.greetings = ["hello", "hello", "hello"]) ∧
    ∃ report, net.result? ⟨2⟩ = some (.ok report) ∧ report.sleepSeconds = 1 := by
  let go (who : Rank) (count : Nat) : List Move :=
    .replicate count (.proceed who ⟨true, .survived, none⟩)
  let moves := go ⟨1⟩ 2 ++ go ⟨2⟩ 2 ++ go ⟨0⟩ 8 ++ go ⟨1⟩ 4 ++ [.crash ⟨1⟩ 0] ++ go ⟨0⟩ 4 ++
    go ⟨2⟩ 7 ++ go ⟨0⟩ 21 ++ go ⟨2⟩ 10
  have ends : ((threeSleep.execute? moves).any fun result =>
      ((result.2.result? .coordinator).any Except.isOk) &&
        (result.2.result? ⟨2⟩).any Except.isOk) = true := by
    decide +kernel
  have own : ∀ move ∈ moves, (move.who = .coordinator → move.IsOwn) ∧ move.IsSound := by decide
  obtain ⟨⟨steps, net⟩, he, hends⟩ := (Option.any_eq_true _ _).mp ends
  obtain ⟨run, hmoves⟩ := execution_of_execute he
  have ownSteps : ∀ step ∈ steps,
      (step.move.who = .coordinator → step.move.IsOwn) ∧ step.move.IsSound :=
    fun step hs => own _ (hmoves ▸ List.mem_map_of_mem hs)
  have crashed : Crashed steps ⟨1⟩ := by
    have hm : Move.crash ⟨1⟩ 0 ∈ steps.map Step.move := hmoves ▸ by decide
    obtain ⟨step, hs, hstep⟩ := List.mem_map.mp hm
    exact ⟨step, hs, 0, hstep⟩
  obtain ⟨first, second⟩ := Bool.and_eq_true_iff.mp hends
  obtain ⟨_ | report, has, isOk⟩ := (Option.any_eq_true _ _).mp first
  · cases isOk
  obtain ⟨_ | report', has', isOk'⟩ := (Option.any_eq_true _ _).mp second
  · cases isOk'
  obtain ⟨-, reports, coordinator, -⟩ := plain_group_agrees .formed run
    (fun step hs => (ownSteps step hs).2) (not_crashed fun step hs => (ownSteps step hs).1)
  obtain ⟨sent, greetings, -⟩ := coordinator _ has
  exact ⟨steps, net, run, crashed, sent.mp ⟨report, rfl⟩ ⟨1⟩ (by decide),
    ⟨report, has, (reports _ _ has).2, greetings report rfl⟩, report', has', (reports _ _ has').2⟩

end Network
end FaultDrill
