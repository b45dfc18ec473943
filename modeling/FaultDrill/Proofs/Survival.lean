import FaultDrill.Proofs.Groups
import FaultDrill.Proofs.Termination
set_option autoImplicit false

/-!
# Nobody is stranded

Whoever goes away and whenever, those who are left can go on until they have left themselves, and
they are done after a number of moves that depends on the size of the group alone.
-/
namespace FaultDrill

inductive Scheduled (size : UInt32) :
    {β : Type} → (Rank → Program Action.interface (Except GroupError β)) → Prop
  | faulty (greeting : Rank → String) (choice : Rank → Except ComponentError RunParameters) :
      Scheduled size (Schedule.faultyGroup size greeting choice)
  | plain (greeting : Rank → String) (requested : Rank → Option UInt64) :
      Scheduled size (Schedule.plainGroup size greeting requested)

namespace Scheduled

variable {size : UInt32} {β : Type}
  {program : Rank → Program Action.interface (Except GroupError β)}

theorem fulfils (h : Scheduled size program) :
    ∃ (plan : Plan) (post : Rank → Situation → Except GroupError β → Prop), plan.size = size ∧
      ∀ r ∈ Rank.everybody size, plan.Fulfils r (post r) .start (program r) := by
  cases h with
  | faulty greeting choice =>
    exact ⟨_, fun r s => Plan.FaultyEnds size greeting choice s r, rfl,
      fun r hr => Plan.faulty_fulfils hr⟩
  | plain greeting requested =>
    exact ⟨_, fun r s => Plan.PlainEnds size greeting _ s r, rfl,
      fun r hr => Plan.plain_fulfils hr⟩

theorem within (h : Scheduled size program) (r : Rank) :
    (program r).Within (4 * size.toNat + 15) := by
  cases h with
  | faulty greeting choice => exact Schedule.faulty_within _ _
  | plain greeting requested =>
    have hplain := Schedule.plain_within ⟨r, size, greeting r⟩ (requested r)
    exact hplain.mono (by dsimp only; omega)

end Scheduled

namespace Network

theorem length_members (size : UInt32) : (Rank.members size).length ≤ size.toNat := by
  rw [Rank.members, Rank.length_interval]
  exact Nat.sub_le _ _

theorem length_peers {size : UInt32} {r : Rank} (hr : r ∈ Rank.everybody size) :
    (r.peers size).length ≤ size.toNat := by
  rcases Rank.mem_everybody.mp hr with rfl | hm
  · exact length_members size
  · rw [Rank.peers_member hm]
    have hlt := Rank.mem_members.mp hm
    change 1 ≤ size.toNat
    omega

/-- The most moves of a whole group of `n` participants. -/
def groupMovesBound (n : Nat) : Nat := (n + 1) * movesBound n (4 * n + 15)

/-- Somebody can go on as long as somebody is left; the group comes to rest after a bounded number
of moves; and then whoever has not crashed has left with a report or an error. -/
theorem nobody_is_stranded {size : UInt32} {β : Type}
    {program : Rank → Program Action.interface (Except GroupError β)}
    {start net : Network (Except GroupError β)} {steps : List (Step (Except GroupError β))}
    (scheduled : Scheduled size program) (begins : Bootstrapped size program start)
    (run : Execution start steps net) (sound : ∀ step ∈ steps, step.move.IsSound) :
    (∀ who ∈ Rank.everybody size, ¬HasLeft net who →
      ∃ r ∈ Rank.everybody size, ¬HasLeft net r ∧ CanMove net r) ∧
    (steps.countP fun step => step.move.IsOwn) ≤ groupMovesBound size.toNat ∧
    (AtRest size net → ∀ who ∈ Rank.everybody size,
      Crashed steps who ∨ ∃ result, net.activity? who = some (.left (some result))) := by
  obtain ⟨plan, post, rfl, fulfils⟩ := scheduled.fulfils
  have fidelity := run.fidelity begins
  obtain ⟨places, coherent⟩ := run.coherent begins sound fulfils
  refine ⟨fun who hw stays => coherent.progress fidelity hw stays, ?_,
    fun rest who hw => coherent.rest fidelity rest hw⟩
  have frugal := run.frugal begins sound fulfils (fun r hr => length_peers hr)
    fun r hr => scheduled.within r
  have heverybody : (Rank.everybody plan.size).length ≤ plan.size.toNat + 1 :=
    Nat.succ_le_succ (length_members plan.size)
  exact Nat.le_trans (frugal.countP_le begins run) (Nat.mul_le_mul_right _ heverybody)

def twoSleep : Network (Except GroupError SleepReport) :=
  formed 2 (Schedule.plainGroup 2 (fun _ => "hello") fun _ => some 1)

theorem nobody_is_stranded_two : ∃ steps net, Execution twoSleep steps net ∧
    Crashed steps .coordinator ∧ ¬HasLeft net ⟨1⟩ ∧
    ∃ r ∈ Rank.everybody 2, ¬HasLeft net r ∧ CanMove net r := by
  have moves : twoSleep.move? (.crash .coordinator 0) =
      some (twoSleep.crash .coordinator 0, []) := rfl
  have run := Execution.start.next moves
  have there : (twoSleep.crash .coordinator 0).activity? ⟨1⟩ =
      some (.running (Schedule.plainGroup 2 (fun _ => "hello") (fun _ => some 1) ⟨1⟩)) := rfl
  have stays : ¬HasLeft (twoSleep.crash .coordinator 0) ⟨1⟩ := by
    rintro ⟨result, left⟩
    rw [there] at left
    cases left
  have sound : ∀ step ∈ [Step.mk twoSleep (.crash .coordinator 0)
      (twoSleep.crash .coordinator 0) []], step.move.IsSound := by
    intro step hs
    obtain rfl := List.mem_singleton.mp hs
    trivial
  exact ⟨_, _, run, ⟨_, List.mem_singleton_self _, 0, rfl⟩, stays,
    (nobody_is_stranded (.plain _ _) .formed run sound).1 ⟨1⟩ (by decide) stays⟩

end Network
end FaultDrill
