import FaultDrill.Program
set_option autoImplicit false

namespace FaultDrill

abbrev Interface.Deed (I : Interface) : Type := (request : I.Request) × I.Answer request

abbrev Interface.Surroundings (I : Interface) : Type :=
  List I.Deed → (request : I.Request) → I.Answer request

namespace Program

variable {I : Interface} {α β : Type}

/-- All that a program does, after what was done before it, and its result. -/
def meet (answers : I.Surroundings) : List I.Deed → Program I α → List I.Deed × α
  | _, done result => ([], result)
  | past, ask request next =>
    let deed : I.Deed := ⟨request, answers past request⟩
    let (deeds, result) := meet answers (past ++ [deed]) (next deed.2)
    (deed :: deeds, result)

/-- A program has done these deeds, whoever answered it, and has come to the result. -/
inductive Ran : Program I α → List I.Deed → α → Prop
  | done (result : α) : Ran (.done result) [] result
  | ask {request : I.Request} {next : I.Answer request → Program I α} {answer : I.Answer request}
      {deeds : List I.Deed} {result : α} (later : Ran (next answer) deeds result) :
      Ran (.ask request next) (⟨request, answer⟩ :: deeds) result

theorem ran_meet (answers : I.Surroundings) (past : List I.Deed) (p : Program I α) :
    p.Ran (p.meet answers past).1 (p.meet answers past).2 := by
  induction p generalizing past with
  | done result => exact .done result
  | ask request next ih => exact .ask (ih _ _)

theorem meet_bind (answers : I.Surroundings) (past : List I.Deed) (p : Program I α)
    (after : α → Program I β) : (p >>= after).meet answers past =
      let (first, middle) := p.meet answers past
      let (last, result) := (after middle).meet answers (past ++ first)
      (first ++ last, result) := by
  change (p.andThen after).meet answers past = _
  induction p generalizing past with
  | done middle => simp [andThen, meet]
  | ask request next ih => simp [andThen, meet, ih]

theorem answer_of_mem_meet {answers : I.Surroundings} {past : List I.Deed} {p : Program I α}
    {deed : I.Deed} (mem : deed ∈ (p.meet answers past).1) :
    ∃ before, deed.2 = answers before deed.1 := by
  induction p generalizing past with
  | done result => exact absurd mem List.not_mem_nil
  | ask request next ih =>
    rcases List.mem_cons.mp mem with rfl | later
    · exact ⟨past, rfl⟩
    · exact ih _ later

theorem ran_bind {p : Program I α} {after : α → Program I β} {deeds : List I.Deed} {result : β}
    (h : (p >>= after).Ran deeds result) : ∃ first last middle,
      deeds = first ++ last ∧ p.Ran first middle ∧ (after middle).Ran last result := by
  change (p.andThen after).Ran deeds result at h
  induction p generalizing deeds with
  | done middle => exact ⟨[], deeds, middle, rfl, .done middle, h⟩
  | ask request next ih =>
    cases h with
    | ask later =>
      obtain ⟨first, last, middle, rfl, before, rest⟩ := ih _ later
      exact ⟨_ :: first, last, middle, rfl, .ask before, rest⟩

end Program
end FaultDrill
