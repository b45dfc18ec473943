import FaultDrill.Proofs.Progress
import FaultDrill.Proofs.Faulty
import FaultDrill.Proofs.Plain
set_option autoImplicit false

namespace FaultDrill

namespace Schedule

def faultyGroup (size : UInt32) (greeting : Rank → String)
    (choice : Rank → Except ComponentError RunParameters) (rank : Rank) :
    Program Action.interface (Except GroupError RunReport) :=
  (faulty ⟨rank, size, greeting rank⟩ (choice rank)).run

def plainGroup (size : UInt32) (greeting : Rank → String) (requested : Rank → Option UInt64)
    (rank : Rank) : Program Action.interface (Except GroupError SleepReport) :=
  (plain ⟨rank, size, greeting rank⟩ (requested rank)).run

end Schedule

/-- What the coordinator has to tell once it has chosen. One that cannot choose never gets there. -/
def RunParameters.announced (choice : Rank → Except ComponentError RunParameters) :
    RunParameters :=
  match choice .coordinator with
  | .ok parameters => parameters
  | .error _ => default

theorem RunParameters.announced_eq {choice : Rank → Except ComponentError RunParameters}
    {p : RunParameters} (h : choice .coordinator = .ok p) : announced choice = p := by
  rw [announced, h]

namespace Plan
open RunParameters

variable {size : UInt32} {greeting : Rank → String}
  {choice : Rank → Except ComponentError RunParameters} {requested : Rank → Option UInt64}

/-- How the run of a participant can end, and where it is then. -/
inductive FaultyEnds (size : UInt32) (greeting : Rank → String)
    (choice : Rank → Except ComponentError RunParameters) (s : Situation) :
    Rank → Except GroupError RunReport → Prop
  | coordinator {result : Except GroupError RunReport}
      (ends : CoordinatorEnds size greeting (announced choice).agreed (choice .coordinator) s
        result) :
      FaultyEnds size greeting choice s .coordinator result
  | member {who : Rank} {result : Except GroupError RunReport} (mem : who ∈ Rank.members size)
      (ends : MemberEnds who (greeting who) (announced choice).agreed s result) :
      FaultyEnds size greeting choice s who result

theorem faulty_fulfils {who : Rank} (hw : who ∈ Rank.everybody size) :
    (faulty size greeting (announced choice)).Fulfils who
      (fun s => FaultyEnds size greeting choice s who) .start
      (Schedule.faultyGroup size greeting choice who) := by
  rcases Rank.mem_everybody.mp hw with rfl | hm
  · exact (coordinator_goes fun p hp => (announced_eq hp).symm).mono fun s result => .coordinator
  · have goes : (faulty size greeting (announced choice)).Goes who _ .start
        (Schedule.faulty ⟨who, size, greeting who⟩ (choice who)) := member_goes hm
    exact goes.mono fun s result => .member hm

inductive PlainEnds (size : UInt32) (greeting : Rank → String) (seconds : UInt64)
    (s : Situation) : Rank → Except GroupError SleepReport → Prop
  | coordinator {result : Except GroupError SleepReport}
      (ends : PlainCoordinatorEnds size greeting seconds s result) :
      PlainEnds size greeting seconds s .coordinator result
  | member {who : Rank} {result : Except GroupError SleepReport} (mem : who ∈ Rank.members size)
      (ends : PlainMemberEnds who (greeting who) seconds s result) :
      PlainEnds size greeting seconds s who result

theorem plain_fulfils {who : Rank} (hw : who ∈ Rank.everybody size) :
    (plain size greeting ((requested .coordinator).getD 0)).Fulfils who
      (fun s => PlainEnds size greeting ((requested .coordinator).getD 0) s who) .start
      (Schedule.plainGroup size greeting requested who) := by
  rcases Rank.mem_everybody.mp hw with rfl | hm
  · exact (plain_coordinator_goes rfl).mono fun s result => .coordinator
  · have goes : (plain size greeting ((requested .coordinator).getD 0)).Goes who _ .start
        (Schedule.plain ⟨who, size, greeting who⟩ (requested who)) := plain_member_goes hm
    exact goes.mono fun s result => .member hm

end Plan
end FaultDrill
