import FaultDrill.Proofs.Groups
set_option autoImplicit false

namespace FaultDrill

namespace Network
open RunParameters

variable {size : UInt32} {greeting : Rank → String}
  {choice : Rank → Except ComponentError RunParameters}
  {steps : List (Step (Except GroupError RunReport))} {net : Network (Except GroupError RunReport)}
  {places : Rank → Situation}

abbrev Faulty (size : UInt32) (greeting : Rank → String)
    (choice : Rank → Except ComponentError RunParameters)
    (steps : List (Step (Except GroupError RunReport)))
    (net : Network (Except GroupError RunReport)) (places : Rank → Situation) : Prop :=
  Coherent (.faulty size greeting (announced choice))
    (fun r s => Plan.FaultyEnds size greeting choice s r) steps net places

/-- The members' greetings are within the limit of a frame. -/
def Concise (size : UInt32) (greeting : Rank → String) : Prop :=
  ∀ m ∈ Rank.members size,
    (Wire.encode (Dialogue.line (greeting m)).frame).length ≤ Frame.maxLength

namespace Faulty

variable (h : Faulty size greeting choice steps net places) (concise : Concise size greeting)
  {m : Rank} (hm : m ∈ Rank.members size)
include h hm

include concise in
theorem member_missing (lost : ((places .coordinator).standing m).status = .lost)
    (left : ((places .coordinator).standing m).turn < 9) :
    ((places m).standing .coordinator).turn ≤ ((places .coordinator).standing m).turn ∧
      (Crashed steps m ∨ (m = (announced choice).agreed.failing ∧
        ((places m).standing .coordinator).turn = 6)) := by
  obtain ⟨shut, behind, reason⟩ := h.missing (Rank.coordinator_mem_everybody _) hm lost left
  refine ⟨behind, reason.imp_right ?_⟩
  rintro ⟨result, has, before, hplace, ends⟩
  rw [hplace] at shut behind ⊢
  have unlost : (before.standing .coordinator).status ≠ .lost := Standing.unlost shut
  cases ends with
  | coordinator => exact absurd rfl (Rank.member_ne hm)
  | member _ ends =>
    cases ends with
    | completed standing =>
      have nine : (before.standing .coordinator).turn = 9 := congrArg Standing.turn standing
      rw [Situation.close_turn, nine] at behind
      omega
    | terminated chosen _ standing =>
      exact ⟨chosen, congrArg Standing.turn standing⟩
    | orphaned _ gone => exact absurd gone unlost
    | bereft gone => exact absurd gone unlost
    | oversized large => exact absurd large (Frame.packet_ne_error (concise m hm) _)

theorem coordinator_missing (lost : ((places m).standing .coordinator).status = .lost)
    (left : ((places m).standing .coordinator).turn < 9) :
    Crashed steps .coordinator ∨ ∃ result, net.result? .coordinator = some result ∧
      ((∃ error, result = .error error ∧ (((places m).standing .coordinator).turn ≤ 5 ∨
          8 ≤ ((places m).standing .coordinator).turn)) ∨
        ((announced choice).agreed.failing = .coordinator ∧
          (places .coordinator).injected = [(announced choice).agreed.fault] ∧
          ((places m).standing .coordinator).turn ≠ 8 ∧
          6 ≤ ((places m).standing .coordinator).turn ∧
          ∃ report, result = .ok report ∧ report.outcome = .terminated)) := by
  have hw : m ∈ Rank.everybody size := Rank.mem_everybody.mpr (.inr hm)
  have hp := Rank.coordinator_mem_peers hm
  have hlength :
      ((Plan.faulty size greeting (announced choice)).between m .coordinator).length = 9 := by
    rw [Plan.between_member hm]
    rfl
  obtain ⟨shut, behind, reason⟩ := h.missing hw hp lost (by rw [hlength]; exact left)
  refine reason.imp_right ?_
  rintro ⟨result, has, before, hplace, ends⟩
  refine ⟨result, has, ?_⟩
  have hside : Plan.side m = .spoke := by
    rw [Plan.side, Rank.isCoordinator_member hm]
    rfl
  have told := fun past => h.heard (i := 5) hw hp past
    (by rw [Plan.between_member hm]; rfl) (by rw [hside]; rfl)
  have released := fun past => h.heard (i := 7) hw hp past
    (by rw [Plan.between_member hm]; rfl) (by rw [hside]; rfl)
  rw [hplace] at shut behind told released ⊢
  have unlost : (before.standing m).status ≠ .lost := Standing.unlost shut
  cases ends with
  | member mem => exact absurd mem (Rank.coordinator_not_mem size)
  | coordinator ends =>
    cases ends with
    | completed present =>
      rcases present m hm with standing | ⟨-, gone, -⟩
      · have nine : (before.standing m).turn = 9 := congrArg Standing.turn standing
        rw [Situation.close_turn, nine] at behind
        omega
      · exact absurd gone unlost
    | terminated chosen struck members =>
      rcases members m hm with standing | ⟨gone, -⟩
      · have six : (before.standing m).turn = 6 := congrArg Standing.turn standing
        rw [Situation.close_turn, six] at behind released
        refine .inr ⟨chosen.symm, struck, fun eight => ?_, behind, _, rfl, rfl⟩
        have hpast := released (by omega)
        omega
      · exact absurd gone unlost
    | departed _ _ _ early =>
      have three := early m hm
      refine .inl ⟨_, rfl, .inl (Nat.le_of_not_lt fun past => ?_)⟩
      have hpast := told past
      rw [Situation.close_turn] at hpast
      omega
    | unexpected _ _ _ _ late =>
      exact .inl ⟨_, rfl, .inr (Nat.le_trans ((late m hm).resolve_left unlost) behind)⟩
    | refused _ early =>
      have five := early m hm
      refine .inl ⟨_, rfl, .inl (Nat.le_of_not_lt fun past => ?_)⟩
      have hpast := told past
      rw [Situation.close_turn] at hpast
      omega

end Faulty
end Network
end FaultDrill
