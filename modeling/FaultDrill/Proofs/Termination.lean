import FaultDrill.Proofs.Budget
import FaultDrill.Proofs.Progress
set_option autoImplicit false

namespace FaultDrill

variable {α : Type}

def Action.movesBound (connections : Nat) : Nat := 4 * connections + 4

/-- However it is answered, what a participant does ends after at most this many moves. -/
def Activity.Within (connections : Nat) : Activity α → Nat → Prop
  | .running rest, n =>
    ∃ actions, rest.Within actions ∧ actions * Action.movesBound connections + 1 ≤ n
  | .calling _ rest next, n => ∃ exchanges actions, rest.Within exchanges ∧
      (∀ answer, (next answer).Within actions) ∧
      exchanges + 1 + (actions * Action.movesBound connections + 1) ≤ n
  | .left _, _ => True

namespace Network

variable {plan : Plan} {post : Rank → Situation → α → Prop} {steps : List (Step α)}
  {net net' : Network α} {places : Rank → Situation} {who : Rank} {connections n : Nat}

def movesOf (steps : List (Step α)) (who : Rank) : Nat :=
  steps.countP fun step => step.move.who = who ∧ step.move.IsOwn

theorem movesOf_next (steps : List (Step α)) (step : Step α) (who : Rank) :
    movesOf (steps ++ [step]) who =
      movesOf steps who + if step.move.who = who ∧ step.move.IsOwn then 1 else 0 := by
  rw [movesOf, List.countP_append, List.countP_singleton]
  simp only [decide_eq_true_eq]
  rfl

theorem within_proceeds {choice : Choice} {seen : List Event} {answered : Option Answered}
    {activity : Activity α} (proceeds : net.Proceeds who choice net' seen answered)
    (coherent : Coherent plan post steps net places) (fidelity : Fidelity plan.size steps net)
    (sound : choice.breakdown = none) (narrow : (who.peers plan.size).length ≤ connections)
    (was : net.activity? who = some activity) (within : activity.Within connections n) :
    ∃ m activity', n = m + 1 ∧ net'.activity? who = some activity' ∧
      activity'.Within connections m := by
  have same : ∀ {other : Activity α}, net.activity? who = some other → other = activity :=
    fun h => Option.some.inj (h.symm.trans was)
  cases proceeds with
  | @start call next c doing has =>
    obtain rfl := same doing
    obtain ⟨actions, hactions, hle⟩ := within
    cases actions with
    | zero => exact hactions.elim
    | succ actions =>
      have hpeers : c.topology.peers = who.peers plan.size :=
        congrArg (fun shape => shape.2.2.1) (coherent.star.shape has)
      have hconduct := c.conduct_within call
      rw [hpeers] at hconduct
      obtain ⟨m, rfl⟩ : ∃ m, n = m + 1 := ⟨n - 1, by omega⟩
      refine ⟨m, _, rfl, activity_setActivity_self doing _, _, actions, hconduct, hactions, ?_⟩
      rw [Nat.succ_mul] at hle
      unfold Action.movesBound at hle ⊢
      omega
  | @act action next answer event doing comes =>
    obtain rfl := same doing
    obtain ⟨actions, hactions, hle⟩ := within
    cases actions with
    | zero => exact hactions.elim
    | succ actions =>
      obtain ⟨m, rfl⟩ : ∃ m, n = m + 1 := ⟨n - 1, by omega⟩
      refine ⟨m, _, rfl, activity_setActivity_self doing _, actions, hactions answer, ?_⟩
      rw [Nat.succ_mul] at hle
      unfold Action.movesBound at hle ⊢
      omega
  | @finish call answer next doing =>
    obtain rfl := same doing
    obtain ⟨exchanges, actions, -, hactions, hle⟩ := within
    obtain ⟨m, rfl⟩ : ∃ m, n = m + 1 := ⟨n - 1, by omega⟩
    exact ⟨m, _, rfl, activity_setActivity_self doing _, actions, hactions answer, by omega⟩
  | wait doing comes =>
    obtain ⟨given, s, answer⟩ := coherent.exchange fidelity sound doing comes
    cases answer.answered
  | @exchange call exchange rest next answer after doing comes =>
    obtain rfl := same doing
    obtain ⟨exchanges, actions, hrest, hactions, hle⟩ := within
    cases exchanges with
    | zero => exact hrest.elim
    | succ exchanges =>
      have doing' := (congrFun (fidelity.exchanged comes).alike.activity who).trans doing
      obtain ⟨m, rfl⟩ : ∃ m, n = m + 1 := ⟨n - 1, by omega⟩
      exact ⟨m, _, rfl, activity_setActivity_self doing' _, exchanges, actions, hrest answer,
        hactions, by omega⟩

def movesBound (connections actions : Nat) : Nat := actions * Action.movesBound connections + 1

/-- Nobody has made more moves than it may, and what it still does fits what is left. -/
def Frugal (size : UInt32) (connections bound : Nat) (steps : List (Step α)) (net : Network α) :
    Prop :=
  ∀ r ∈ Rank.everybody size, ∃ activity left, net.activity? r = some activity ∧
    activity.Within connections left ∧ movesOf steps r + left ≤ bound

theorem Frugal.next {bound : Nat} (h : Frugal plan.size connections bound steps net)
    (coherent : Coherent plan post steps net places) (fidelity : Fidelity plan.size steps net)
    {move : Move} {seen : List Event} (sound : move.IsSound)
    (narrow : ∀ r ∈ Rank.everybody plan.size, (r.peers plan.size).length ≤ connections)
    (hm : net.Moved move net' seen (Step.mk net move net' seen).answered?) :
    Frugal plan.size connections bound (steps ++ [⟨net, move, net', seen⟩]) net' := by
  intro r hr
  obtain ⟨activity, left, was, within, hle⟩ := h r hr
  rw [movesOf_next]
  by_cases hrw : r = move.who
  · subst hrw
    generalize (Step.mk net move net' seen).answered? = answered at hm
    cases hm with
    | @proceed who choice _ _ _ proceeds =>
      obtain ⟨m, activity', rfl, is, within'⟩ :=
        within_proceeds proceeds coherent fidelity sound (narrow who hr) was within
      rw [if_pos ⟨rfl, trivial⟩]
      exact ⟨activity', m, is, within', by omega⟩
    | @leave who result doing =>
      obtain rfl := Option.some.inj (was.symm.trans doing)
      obtain ⟨actions, -, hleft⟩ := within
      have is := (congrFun (alike_hangUp net who).activity who).trans doing
      rw [if_pos ⟨rfl, trivial⟩]
      exact ⟨_, 0, activity_setActivity_self is _, trivial, by omega⟩
    | @crash who written there =>
      have alike := (carryPart_leaves net who written).1.trans (alike_hangUp _ who)
      have is := (congrFun alike.activity who).trans was
      rw [if_neg fun hown => hown.2]
      exact ⟨_, left, activity_setActivity_self is _, trivial, hle⟩
  · rw [(fidelity.frame hm hrw).1, if_neg fun h' => hrw h'.1.symm]
    exact ⟨activity, left, was, within, hle⟩

theorem Execution.frugal {program : Rank → Program Action.interface α} {start net : Network α}
    {steps : List (Step α)} {actions : Nat} (begins : Bootstrapped plan.size program start)
    (run : Execution start steps net) (sound : ∀ step ∈ steps, step.move.IsSound)
    (fulfils : ∀ r ∈ Rank.everybody plan.size, plan.Fulfils r (post r) .start (program r))
    (narrow : ∀ r ∈ Rank.everybody plan.size, (r.peers plan.size).length ≤ connections)
    (within : ∀ r ∈ Rank.everybody plan.size, (program r).Within actions) :
    Frugal plan.size connections (movesBound connections actions) steps net := by
  induction run with
  | start =>
    intro r hr
    refine ⟨.running (program r), movesBound connections actions, ?_, ?_, ?_⟩
    · rw [begins.starts.activity, if_pos hr]
    · exact ⟨actions, within r hr, Nat.le_refl _⟩
    · exact Nat.le_of_eq (Nat.zero_add _)
  | @next steps net net' move seen earlier moves ih =>
    have before := fun step hs => sound step (List.mem_append_left _ hs)
    have last := sound ⟨net, move, net', seen⟩ (List.mem_append_right _ (List.mem_singleton_self _))
    obtain ⟨places, coherent⟩ := earlier.coherent begins before fulfils
    exact (ih before).next coherent (earlier.fidelity begins) last narrow (moved moves)

theorem countP_le_add {β : Type} {p q r : β → Bool} (h : ∀ b, r b = true → p b = true ∨ q b = true)
    (l : List β) : l.countP r ≤ l.countP p + l.countP q := by
  induction l with
  | nil => exact Nat.zero_le _
  | cons b l ih =>
    rw [List.countP_cons, List.countP_cons, List.countP_cons]
    cases hr : r b with
    | false =>
      simp only [Bool.false_eq_true, if_false]
      omega
    | true =>
      rcases h b hr with hp | hq
      · simp only [hp, if_true]
        omega
      · simp only [hq, if_true]
        omega

theorem countP_own_le (steps : List (Step α)) (ranks : List Rank) {bound : Nat}
    (each : ∀ r ∈ ranks, movesOf steps r ≤ bound) :
    (steps.countP fun step => step.move.who ∈ ranks ∧ step.move.IsOwn) ≤ ranks.length * bound := by
  induction ranks with
  | nil => simp
  | cons r ranks ih =>
    have hfirst := each r List.mem_cons_self
    have hrest := ih fun r' hr' => each r' (List.mem_cons_of_mem _ hr')
    have hsplit : (steps.countP fun step => step.move.who ∈ r :: ranks ∧ step.move.IsOwn) ≤
        movesOf steps r + steps.countP fun step => step.move.who ∈ ranks ∧ step.move.IsOwn := by
      refine countP_le_add (fun step h => ?_) steps
      simp only [decide_eq_true_eq, List.mem_cons] at h ⊢
      exact h.1.imp (⟨·, h.2⟩) (⟨·, h.2⟩)
    rw [List.length_cons, Nat.succ_mul]
    omega

theorem Moved.acts {move : Move} {seen : List Event} {answered : Option Answered}
    (h : net.Moved move net' seen answered) :
    ∃ activity, net.activity? move.who = some activity := by
  cases h with
  | proceed proceeds => cases proceeds <;> exact ⟨_, ‹_›⟩
  | leave doing => exact ⟨_, doing⟩
  | @crash who written there =>
    obtain ⟨site, hs⟩ := Option.isSome_iff_exists.mp there
    exact ⟨site.activity, by rw [activity?, Move.who, hs]; rfl⟩

theorem Execution.who_mem {size : UInt32} {program : Rank → Program Action.interface α}
    {start net : Network α} {steps : List (Step α)} (begins : Bootstrapped size program start)
    (run : Execution start steps net) : ∀ step ∈ steps, step.move.who ∈ Rank.everybody size := by
  induction run with
  | start => exact nofun
  | next earlier moves ih =>
    intro step hs
    rcases List.mem_append.mp hs with hs | hs
    · exact ih step hs
    · obtain rfl := List.mem_singleton.mp hs
      obtain ⟨activity, doing⟩ := (moved moves).acts
      obtain ⟨c, hc⟩ := communicator_of_activity doing
      exact (earlier.fidelity begins).star.mem_everybody hc

/-- A group that follows a plan makes a bounded number of moves. -/
theorem Frugal.countP_le {program : Rank → Program Action.interface α} {start : Network α}
    {size : UInt32} {bound : Nat} (h : Frugal size connections bound steps net)
    (begins : Bootstrapped size program start) (run : Execution start steps net) :
    (steps.countP fun step => step.move.IsOwn) ≤ (Rank.everybody size).length * bound := by
  have hevery : (steps.countP fun step => step.move.IsOwn) =
      steps.countP fun step => step.move.who ∈ Rank.everybody size ∧ step.move.IsOwn := by
    refine List.countP_congr fun step hs => ?_
    simp only [decide_eq_true_eq, run.who_mem begins step hs, true_and]
  rw [hevery]
  refine countP_own_le steps _ fun r hr => ?_
  obtain ⟨activity, left, -, -, hle⟩ := h r hr
  omega

end Network
end FaultDrill
