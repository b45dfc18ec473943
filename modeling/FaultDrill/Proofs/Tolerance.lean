import FaultDrill.Proofs.Agreement
set_option autoImplicit false

/-!
# Members that crash

Whatever members crash and wherever they do, the run of the coordinator comes to the farewells of
all the others, or names a member that has crashed before it had sent the line it is missed for.
-/
namespace FaultDrill.Network
open RunParameters

variable {size : UInt32} {greeting : Rank → String}
  {choice : Rank → Except ComponentError RunParameters}
  {steps : List (Step (Except GroupError RunReport))} {net : Network (Except GroupError RunReport)}
  {places : Rank → Situation}

/-- The lines that a member has completely sent to the coordinator, in order. -/
def linesSent {α : Type} (steps : List (Step α)) (who : Rank) : List Frame :=
  (sent steps who .coordinator).filter (Wanted.data Frame.textTag).accepts

def GreetingSent {α : Type} (steps : List (Step α)) (greeting : Rank → String) (who : Rank) :
    Prop :=
  (linesSent steps who)[0]? = some (Dialogue.line (greeting who)).frame

def FarewellSent {α : Type} (steps : List (Step α)) (who : Rank) : Prop :=
  (linesSent steps who)[1]? = some (Dialogue.line who.farewell).frame

instance {α : Type} (steps : List (Step α)) (who : Rank) : Decidable (FarewellSent steps who) :=
  inferInstanceAs (Decidable (_ = _))

theorem lines_said (text : String) (told : RunParameters) (member : Rank) (turn : Nat) :
    ((Dialogue.faulty text told member).said .spoke 0 turn).filter
        (Wanted.data Frame.textTag).accepts =
      (if 2 < turn then [(Dialogue.line text).frame] else []) ++
        if 8 < turn then [(Dialogue.line member.farewell).frame] else [] := by
  match turn with
  | 0 | 1 | 2 | 3 | 4 | 5 | 6 | 7 | 8 => rfl
  | turn + 9 =>
    have hall : (Dialogue.faulty text told member).take (turn + 9) =
        Dialogue.faulty text told member := List.take_of_length_le (Nat.le_add_left 9 turn)
    rw [if_pos (by omega), if_pos (by omega), Dialogue.said, hall]
    rfl

namespace Faulty

variable (h : Faulty size greeting choice steps net places) {m : Rank}
  (hm : m ∈ Rank.members size)
include h hm

theorem linesSent_eq : linesSent steps m =
    (if 2 < ((places m).standing .coordinator).turn
      then [(Dialogue.line (greeting m)).frame] else []) ++
    if 8 < ((places m).standing .coordinator).turn
      then [(Dialogue.line m.farewell).frame] else [] := by
  have said := h.said m (Rank.mem_everybody.mpr (.inr hm)) .coordinator
    (Rank.coordinator_mem_peers hm)
  have hside : Plan.side m = .spoke := by rw [Plan.side, Rank.isCoordinator_member hm]; rfl
  rw [Plan.between_member hm, hside] at said
  rw [linesSent, said]
  exact lines_said _ _ _ _

theorem greetingSent_iff :
    GreetingSent steps greeting m ↔ 2 < ((places m).standing .coordinator).turn := by
  rw [GreetingSent, h.linesSent_eq hm]
  by_cases hturn : 2 < ((places m).standing .coordinator).turn
  · simp [hturn]
  · have hlast : ¬8 < ((places m).standing .coordinator).turn := by omega
    simp [hturn, hlast]

theorem farewellSent_iff :
    FarewellSent steps m ↔ 8 < ((places m).standing .coordinator).turn := by
  rw [FarewellSent, h.linesSent_eq hm]
  by_cases hturn : 8 < ((places m).standing .coordinator).turn
  · have hfirst : 2 < ((places m).standing .coordinator).turn := by omega
    simp [hturn, hfirst]
  · by_cases hfirst : 2 < ((places m).standing .coordinator).turn <;> simp [hturn, hfirst]

end Faulty

namespace Faulty

variable (h : Faulty size greeting choice steps net places) (concise : Concise size greeting)
include h concise

theorem heard_farewell {before : Situation} {m : Rank} (hm : m ∈ Rank.members size)
    (standing : ((places .coordinator).standing m).turn = (before.standing m).turn ∧
      ((before.standing m).status = .lost → ((places .coordinator).standing m).status = .lost))
    (present : before.standing m = ⟨9, .shut⟩ ∨ (m = (announced choice).agreed.failing ∧
      (before.standing m).status = .lost ∧ (before.standing m).turn < 9)) :
    (before.standing m).turn = 9 ↔
      m ≠ (announced choice).agreed.failing ∨ FarewellSent steps m := by
  rw [h.farewellSent_iff hm]
  rcases present with present | ⟨failing, lost, left⟩
  · have nine : (before.standing m).turn = 9 := congrArg Standing.turn present
    have hsaid := h.heard (i := 8) (Rank.coordinator_mem_everybody _) hm
      (by rw [standing.1, nine]; decide) rfl rfl
    exact ⟨fun _ => .inr hsaid, fun _ => nine⟩
  · have behind := (h.member_missing concise hm (standing.2 lost) (by omega)).1
    constructor
    · intro nine
      omega
    · rintro (other | sent)
      · exact absurd failing other
      · omega

theorem coordinator_result {parameters : RunParameters}
    (chosen : choice .coordinator = .ok parameters) {result : Except GroupError RunReport}
    (has : net.result? .coordinator = some result) :
    (∃ report, result = .ok report ∧ report.parameters = (announced choice).agreed ∧
      (report.outcome = .completed → report.farewells = ((Rank.everybody size).filter fun r =>
        r = .coordinator ∨ r ≠ (announced choice).agreed.failing ∨ FarewellSent steps r).map
          Rank.farewell ∧ report.farewells.Nodup)) ∨
    (∃ r ∈ Rank.members size, result = .error (.unexpectedDeparture r) ∧
      r ≠ (announced choice).agreed.failing ∧ Crashed steps r ∧ ¬FarewellSent steps r) ∨
    (∃ r ∈ Rank.members size, result = .error (.peerDeparted r) ∧ Crashed steps r ∧
      ¬GreetingSent steps greeting r) := by
  obtain ⟨before, ends, -, standing⟩ := h.ended has
  cases ends with
  | member mem => exact absurd mem (Rank.coordinator_not_mem size)
  | coordinator ends =>
    cases ends with
    | completed present =>
      refine .inl ⟨_, rfl, rfl, fun _ => ?_⟩
      have hlines : (Rank.members size).filter (fun r => (before.standing r).turn = 9) =
          (Rank.members size).filter fun r => r = .coordinator ∨
            r ≠ (announced choice).agreed.failing ∨ FarewellSent steps r := by
        refine List.filter_congr fun m hm => decide_eq_decide.mpr ?_
        rw [h.heard_farewell concise hm (standing m) (present m hm),
          or_iff_right (Rank.member_ne hm)]
      have heard : Rank.coordinator ::
          (Rank.members size).filter (fun r => (before.standing r).turn = 9) =
          (Rank.everybody size).filter fun r => r = .coordinator ∨
            r ≠ (announced choice).agreed.failing ∨ FarewellSent steps r := by
        rw [Rank.everybody, List.filter_cons_of_pos (by simp), ← hlines]
      rw [heard]
      exact ⟨rfl, Rank.nodup_farewells ((Rank.nodup_everybody size).filter _)⟩
    | terminated =>
      exact .inl ⟨_, rfl, rfl, by simp⟩
    | @unexpected r mem unchosen lost turn =>
      obtain ⟨hturn, hlost⟩ := standing r
      obtain ⟨behind, reason⟩ := h.member_missing concise mem (hlost lost) (by omega)
      refine .inr (.inl ⟨r, mem, rfl, unchosen, reason.resolve_right fun h' => unchosen h'.1, ?_⟩)
      rw [h.farewellSent_iff mem]
      omega
    | @departed r mem lost turn =>
      obtain ⟨hturn, hlost⟩ := standing r
      obtain ⟨behind, reason⟩ := h.member_missing concise mem (hlost lost) (by omega)
      refine .inr (.inr ⟨r, mem, rfl, reason.resolve_right fun h' => ?_, ?_⟩)
      · have six := h'.2
        omega
      · rw [h.greetingSent_iff mem]
        omega
    | refused refuses =>
      rw [chosen] at refuses
      cases refuses

omit concise in
theorem member_result (concise : Concise size greeting) {m : Rank} (hm : m ∈ Rank.members size)
    (stays : ¬Crashed steps .coordinator) {result : Except GroupError RunReport}
    (has : net.result? m = some result) :
    (∃ report, result = .ok report ∧ report.parameters = (announced choice).agreed ∧
      (report.outcome = .terminated → m = (announced choice).agreed.failing) ∧
      (report.outcome = .coordinatorLost → (announced choice).agreed.failing = .coordinator ∧
        ∃ other, net.result? .coordinator = some (.ok other) ∧ other.outcome = .terminated)) ∨
    (result = .error .coordinatorLost ∧
      ∃ error, net.result? .coordinator = some (.error error)) := by
  obtain ⟨before, ends, -, standing⟩ := h.ended has
  obtain ⟨hturn, hlost⟩ := standing .coordinator
  cases ends with
  | coordinator => exact absurd rfl (Rank.member_ne hm)
  | member _ ends =>
    cases ends with
    | completed => exact .inl ⟨_, rfl, rfl, nofun, nofun⟩
    | terminated self => exact .inl ⟨_, rfl, rfl, fun _ => self, nofun⟩
    | orphaned failing lost first last =>
      refine .inl ⟨_, rfl, rfl, nofun, fun _ => ⟨failing, ?_⟩⟩
      obtain ⟨other, has', reason⟩ :=
        (h.coordinator_missing hm (hlost lost) (by omega)).resolve_left stays
      rcases reason with ⟨error, -, hturns⟩ | ⟨-, -, -, -, report, rfl, outcome⟩
      · omega
      · exact ⟨report, has', outcome⟩
    | bereft lost last unchosen =>
      obtain ⟨other, has', reason⟩ :=
        (h.coordinator_missing hm (hlost lost) (by omega)).resolve_left stays
      rcases reason with ⟨error, rfl, -⟩ | ⟨failing, -, hne, hle, -⟩
      · exact .inr ⟨rfl, error, has'⟩
      · have hcases := unchosen failing
        omega
    | oversized large => exact absurd large (Frame.packet_ne_error (concise m hm) _)

end Faulty

/-- Whatever members crash and wherever they do: the coordinator's run completes with the farewells
of everybody but the chosen participant, whose farewell is among them if it was completely sent,
each once and in rank order, or ends with the name of a member that crashed before the line it was
missed for was completely sent. A member's run ends with the agreed parameters, or for want of a
coordinator, but that only after the coordinator's run has failed. Once nobody can go on, the run of
everybody that has not crashed has ended. -/
theorem member_crashes_are_tolerated {sleep : Option UInt64} {fault : Option FaultCode}
    {attempts : Nat} {draws rest : Draws} {start : Network (Except GroupError RunReport)}
    (inhabited : size ≠ 0)
    (resolves : resolve? sleep fault size attempts draws = some (choice .coordinator, rest))
    (concise : Concise size greeting)
    (begins : Bootstrapped size (Schedule.faultyGroup size greeting choice) start)
    (run : Execution start steps net) (sound : ∀ step ∈ steps, step.move.IsSound)
    (stays : ¬Crashed steps .coordinator) :
    ∃ parameters, choice .coordinator = .ok parameters ∧ parameters.failing.index < size ∧
      (∀ result, net.result? .coordinator = some result →
        (∃ report, result = .ok report ∧ report.parameters = parameters.agreed ∧
          (report.outcome = .completed → report.farewells =
            ((Rank.everybody size).filter fun r => r = .coordinator ∨ r ≠ parameters.failing ∨
              FarewellSent steps r).map Rank.farewell ∧ report.farewells.Nodup)) ∨
        (∃ r ∈ Rank.members size, result = .error (.unexpectedDeparture r) ∧
          r ≠ parameters.failing ∧ Crashed steps r ∧ ¬FarewellSent steps r) ∨
        (∃ r ∈ Rank.members size, result = .error (.peerDeparted r) ∧ Crashed steps r ∧
          ¬GreetingSent steps greeting r)) ∧
      (∀ m ∈ Rank.members size, ∀ result, net.result? m = some result →
        (∃ report, result = .ok report ∧ report.parameters = parameters.agreed ∧
          (report.outcome = .terminated → m = parameters.failing) ∧
          (report.outcome = .coordinatorLost → parameters.failing = .coordinator ∧
            ∃ other, net.result? .coordinator = some (.ok other) ∧ other.outcome = .terminated)) ∨
        (result = .error .coordinatorLost ∧
          ∃ error, net.result? .coordinator = some (.error error))) ∧
      (AtRest size net → ∀ who ∈ Rank.everybody size, ¬Crashed steps who →
        (net.result? who).isSome) := by
  obtain ⟨places, h⟩ : ∃ places, Faulty size greeting choice steps net places :=
    run.coherent begins sound fun r hr => Plan.faulty_fulfils hr
  obtain ⟨parameters, chosen, hlt⟩ := resolve_ok inhabited resolves
  obtain rfl := announced_eq chosen
  exact ⟨_, chosen, hlt, fun result has => h.coordinator_result concise chosen has,
    fun m hm result has => h.member_result concise hm stays has,
    fun rest who hw stays => h.result_isSome (run.fidelity begins) rest hw stays⟩

def threeDrill : Network (Except GroupError RunReport) :=
  formed 3 (Schedule.faultyGroup 3 (fun _ => "hello") twoChoice)

def missed? : Except GroupError RunReport → Option Rank
  | .error (.unexpectedDeparture r) => some r
  | _ => none

/-- The first member does not survive its fault, as it has to be, but the second one crashes when
five bytes of its farewell are written. -/
theorem member_crashes_are_tolerated_three : ∃ steps net, Execution threeDrill steps net ∧
    net.result? .coordinator = some (.error (.unexpectedDeparture ⟨2⟩)) ∧
    Crashed steps ⟨2⟩ ∧ ¬FarewellSent steps ⟨2⟩ := by
  let go (who : Rank) (count : Nat) : List Move :=
    .replicate count (.proceed who ⟨true, .terminated, none⟩)
  let moves := go ⟨1⟩ 2 ++ go ⟨2⟩ 2 ++ go ⟨0⟩ 4 ++ go ⟨1⟩ 7 ++ go ⟨0⟩ 1 ++ go ⟨2⟩ 7 ++ go ⟨0⟩ 14 ++
    go ⟨1⟩ 3 ++ go ⟨0⟩ 1 ++ go ⟨2⟩ 3 ++ go ⟨0⟩ 4 ++ go ⟨1⟩ 6 ++ go ⟨0⟩ 1 ++ go ⟨2⟩ 7 ++ go ⟨0⟩ 5 ++
    [.leave ⟨1⟩] ++ go ⟨0⟩ 4 ++ go ⟨2⟩ 3 ++ [.crash ⟨2⟩ 5] ++ go ⟨0⟩ 8
  have ends : ((threeDrill.execute? moves).any fun result =>
      decide ((result.2.result? .coordinator).bind missed? = some ⟨2⟩)) = true := by
    decide +kernel
  have own : ∀ move ∈ moves, (move.who = .coordinator → move.IsOwn) ∧ move.IsSound := by decide
  obtain ⟨⟨steps, net⟩, he, hends⟩ := (Option.any_eq_true _ _).mp ends
  obtain ⟨run, hmoves⟩ := execution_of_execute he
  have ownSteps : ∀ step ∈ steps,
      (step.move.who = .coordinator → step.move.IsOwn) ∧ step.move.IsSound :=
    fun step hs => own _ (hmoves ▸ List.mem_map_of_mem hs)
  obtain ⟨result, has, missed⟩ := Option.bind_eq_some_iff.mp (of_decide_eq_true hends)
  have resolves : resolve? (some 1) none 3 1 (Draws.ofList [2147483648]) =
      some (twoChoice .coordinator, (Draws.ofList [2147483648]).drop 1) := rfl
  have short : (Wire.encode (Dialogue.line "hello").frame).length ≤ Frame.maxLength := by
    decide +kernel
  obtain ⟨parameters, -, -, coordinator, -⟩ :=
    member_crashes_are_tolerated (by decide) resolves (fun _ _ => short) .formed run
      (fun step hs => (ownSteps step hs).2) (not_crashed fun step hs => (ownSteps step hs).1)
  rcases coordinator _ has with ⟨report, rfl, -⟩ | ⟨r, -, rfl, -, crashed, unsent⟩ | ⟨r, -, rfl, -⟩
  · cases missed
  · cases missed
    exact ⟨steps, net, run, has, crashed, unsent⟩
  · cases missed

end FaultDrill.Network
