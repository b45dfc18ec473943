import FaultDrill.Proofs.Surroundings
import FaultDrill.Schedule
set_option autoImplicit false

/-!
# Itineraries

An itinerary is what a schedule calls, sleeps and injects, in order. Each of its stations judges
the answer that it gets: the run goes on to the next one, or it is over and has ended in some way.
What is printed or noted on the way is not on the itinerary.
-/
namespace FaultDrill

abbrev Ending : Type := Except GroupError Outcome

abbrev Action.Deed : Type := (action : Action) × action.Answer

def Action.isEffect : Action → Bool
  | call _ | sleep _ | inject _ => true
  | print _ | note _ => false

def effects (deeds : List Action.Deed) : List Action.Deed :=
  deeds.filter fun deed => deed.1.isEffect

@[simp] theorem effects_append (first last : List Action.Deed) :
    effects (first ++ last) = effects first ++ effects last :=
  List.filter_append first last

theorem effects_effect {action : Action} (h : action.isEffect = true) (answer : action.Answer)
    (later : List Action.Deed) :
    effects (⟨action, answer⟩ :: later) = ⟨action, answer⟩ :: effects later :=
  List.filter_cons_of_pos h

theorem effects_silent {action : Action} (h : action.isEffect = false) (answer : action.Answer)
    (later : List Action.Deed) : effects (⟨action, answer⟩ :: later) = effects later :=
  List.filter_cons_of_neg (by simp [h])

/-- A failure is the end of a run; a value that is as it should be lets it go on. -/
def passing {α : Type} (post : α → Prop) (halt : Option Ending) : Except GroupError α → Prop
  | .ok value => halt = none ∧ post value
  | .error error => halt = some (.error error)

/-- An action, and the ways in which the run may be over after an answer; none when it goes on. -/
structure Station where
  action : Action
  judges : action.Answer → Option Ending → Prop

namespace Station

def reading {α : Type} (action : Action) (post : α → Prop)
    (read : action.Answer → Except GroupError α) : Station :=
  ⟨action, fun answer halt => passing post halt (read answer)⟩

def requiring {α : Type} (action : Action) (read : action.Answer → Except GroupError α) :
    Station :=
  reading action (fun _ => True) read

def Judges (station : Station) (deed : Action.Deed) (halt : Option Ending) : Prop :=
  ∃ answer, deed = ⟨station.action, answer⟩ ∧ station.judges answer halt

theorem reading_passes {α : Type} {action : Action} {post : α → Prop}
    {read : action.Answer → Except GroupError α} {deed : Action.Deed}
    (h : (reading action post read).Judges deed none) :
    ∃ answer value, deed = ⟨action, answer⟩ ∧ read answer = .ok value ∧ post value := by
  obtain ⟨answer, rfl, passed⟩ := h
  cases hr : read answer with
  | ok value =>
    exact ⟨answer, value, rfl, hr, (hr ▸ passed : passing post none (.ok value)).2⟩
  | error error => cases (hr ▸ passed : passing post none (.error error))

theorem reading_ends {α : Type} {action : Action} {post : α → Prop}
    {read : action.Answer → Except GroupError α} {deed : Action.Deed} {ending : Ending}
    (h : (reading action post read).Judges deed (some ending)) :
    ∃ answer error, deed = ⟨action, answer⟩ ∧ read answer = .error error ∧
      ending = .error error := by
  obtain ⟨answer, rfl, stopped⟩ := h
  cases hr : read answer with
  | ok value => cases (hr ▸ stopped : passing post (some ending) (.ok value)).1
  | error error =>
    cases (hr ▸ stopped : passing post (some ending) (.error error))
    exact ⟨answer, error, rfl, hr, rfl⟩

theorem Judges.action_eq {station : Station} {deed : Action.Deed} {halt : Option Ending}
    (h : station.Judges deed halt) : deed.1 = station.action := by
  obtain ⟨answer, rfl, -⟩ := h
  rfl

end Station

/-- The deeds follow the stations from the first one on, to the end or to where the run is over. -/
inductive Along : List Station → List Action.Deed → Option Ending → Prop
  | done : Along [] [] none
  | pass {station : Station} {rest : List Station} {deed : Action.Deed} {deeds : List Action.Deed}
      {halt : Option Ending} (passed : station.Judges deed none) (later : Along rest deeds halt) :
      Along (station :: rest) (deed :: deeds) halt
  | halt {station : Station} {rest : List Station} {deed : Action.Deed} {ending : Ending}
      (stopped : station.Judges deed (some ending)) : Along (station :: rest) [deed] (some ending)

namespace Along

variable {stations rest : List Station} {deeds later : List Action.Deed} {halt : Option Ending}
  {ending : Ending}

theorem single {station : Station} {deed : Action.Deed} (h : station.Judges deed halt) :
    Along [station] [deed] halt := by
  cases halt with
  | none => exact .pass h .done
  | some ending => exact .halt h

theorem nothing (h : Along [] deeds halt) : deeds = [] ∧ halt = none := by
  cases h
  exact ⟨rfl, rfl⟩

theorem append (h : Along stations deeds none) (h' : Along rest later halt) :
    Along (stations ++ rest) (deeds ++ later) halt := by
  generalize hn : (none : Option Ending) = passed at h
  induction h with
  | done => exact h'
  | pass passed _ ih => exact .pass passed (ih hn)
  | halt => cases hn

theorem stop (h : Along stations deeds (some ending)) (rest : List Station) :
    Along (stations ++ rest) deeds (some ending) := by
  generalize hs : some ending = stopped at h
  induction h with
  | done => cases hs
  | pass passed _ ih => exact .pass passed (ih hs)
  | halt stopped =>
    cases hs
    exact .halt stopped

theorem split (h : Along (stations ++ rest) deeds halt) :
    (∃ ending, halt = some ending ∧ Along stations deeds halt) ∨ ∃ first last,
      deeds = first ++ last ∧ Along stations first none ∧ Along rest last halt := by
  induction stations generalizing deeds with
  | nil => exact .inr ⟨[], deeds, rfl, .done, h⟩
  | cons station stations ih =>
    cases h with
    | halt stopped => exact .inl ⟨_, rfl, .halt stopped⟩
    | pass passed later =>
      rcases ih later with ⟨ending, rfl, before⟩ | ⟨first, last, rfl, before, after⟩
      · exact .inl ⟨ending, rfl, .pass passed before⟩
      · exact .inr ⟨_ :: first, last, rfl, .pass passed before, after⟩

theorem actions_prefix (h : Along stations deeds halt) :
    deeds.map Sigma.fst <+: stations.map Station.action := by
  induction h with
  | done => exact List.prefix_refl []
  | pass passed _ ih =>
    rw [List.map_cons, List.map_cons, passed.action_eq]
    exact (List.prefix_cons_inj _).mpr ih
  | halt stopped =>
    rw [List.map_cons, List.map_cons, stopped.action_eq]
    exact (List.prefix_cons_inj _).mpr List.nil_prefix

theorem judged (h : Along stations deeds halt) {deed : Action.Deed} (hd : deed ∈ deeds) :
    ∃ station ∈ stations, station.Judges deed none ∨
      ∃ ending, halt = some ending ∧ station.Judges deed (some ending) := by
  induction h with
  | done => cases hd
  | @pass station rest first deeds halt passed later ih =>
    rcases List.mem_cons.mp hd with rfl | hd
    · exact ⟨station, List.mem_cons_self, .inl passed⟩
    · obtain ⟨other, mem, verdict⟩ := ih hd
      exact ⟨other, List.mem_cons_of_mem _ mem, verdict⟩
  | @halt station rest first ending stopped =>
    obtain rfl := List.mem_singleton.mp hd
    exact ⟨station, List.mem_cons_self, .inr ⟨ending, rfl, stopped⟩⟩

theorem stopped (h : Along stations deeds (some ending)) :
    ∃ station ∈ stations, ∃ deed, station.Judges deed (some ending) := by
  generalize hs : some ending = halt at h
  induction h with
  | done => cases hs
  | pass _ _ ih =>
    obtain ⟨station, mem, judges⟩ := ih hs
    exact ⟨station, List.mem_cons_of_mem _ mem, judges⟩
  | halt stopped =>
    cases hs
    exact ⟨_, List.mem_cons_self, _, stopped⟩

theorem passed {before after : List Action.Deed} {deed : Action.Deed}
    (h : Along stations (before ++ deed :: after) halt) (more : after ≠ []) :
    ∃ station ∈ stations, station.Judges deed none := by
  induction before generalizing stations with
  | nil =>
    cases h with
    | pass passed _ => exact ⟨_, List.mem_cons_self, passed⟩
    | halt => exact absurd rfl more
  | cons first before ih =>
    rw [List.cons_append] at h
    generalize hd : before ++ deed :: after = deeds at h
    cases h with
    | pass _ later =>
      subst hd
      obtain ⟨station, mem, passed⟩ := ih later
      exact ⟨station, List.mem_cons_of_mem _ mem, passed⟩
    | halt => cases before <;> cases hd

end Along

theorem Action.ran_done {α : Type} {deeds : List Action.Deed} {value result : α}
    (h : (Program.done (I := Action.interface) value).Ran deeds result) :
    deeds = [] ∧ result = value := by
  cases h
  exact ⟨rfl, rfl⟩

theorem Action.ran_ask {α : Type} {action : Action}
    {next : action.Answer → Program Action.interface α} {deeds : List Action.Deed} {result : α}
    (h : (Program.ask (I := Action.interface) action next).Ran deeds result) :
    ∃ (answer : action.Answer) (later : List Action.Deed),
      deeds = ⟨action, answer⟩ :: later ∧ (next answer).Ran later result := by
  cases h with
  | ask later => exact ⟨_, _, rfl, later⟩

namespace Schedule

variable {α β ι κ μ : Type}

theorem ran_bind {stretch : Schedule α} {after : α → Schedule β} {deeds : List Action.Deed}
    {result : Except GroupError β} (h : (stretch >>= after).run.Ran deeds result) :
    (∃ error, result = .error error ∧ stretch.run.Ran deeds (.error error)) ∨
    ∃ value first last, deeds = first ++ last ∧ stretch.run.Ran first (.ok value) ∧
      (after value).run.Ran last result := by
  obtain ⟨first, last, middle, rfl, before, rest⟩ := Program.ran_bind h
  cases middle with
  | ok value => exact .inr ⟨value, first, last, rfl, before, rest⟩
  | error error =>
    cases rest
    exact .inl ⟨error, rfl, by rwa [List.append_nil]⟩

/-- A run begins with what its first stretch does, and is over when that fails. -/
theorem meet_bind (stretch : Schedule α) (after : α → Schedule β)
    (answers : Action.interface.Surroundings) (past : List Action.Deed) :
    (stretch.run.meet answers past).1 <+: ((stretch >>= after).run.meet answers past).1 ∧
      ∀ error, (stretch.run.meet answers past).2 = .error error →
        (stretch >>= after).run.meet answers past =
          ((stretch.run.meet answers past).1, .error error) := by
  have met := Program.meet_bind answers past stretch.run (ExceptT.bindCont after)
  change (stretch >>= after).run.meet answers past = _ at met
  rw [met]
  refine ⟨List.prefix_append _ _, fun error failed => ?_⟩
  simp only [failed]
  exact Prod.ext (List.append_nil _) rfl

/-- Every run of the stretch goes along one of the itineraries, and ends as that one says. -/
def Tours (stations : ι → List Station)
    (ends : ι → Option Ending → Except GroupError α → Prop) (stretch : Schedule α) : Prop :=
  ∀ deeds result, stretch.run.Ran deeds result → ∃ i halt,
    Along (stations i) (effects deeds) halt ∧ ends i halt result

namespace Tours

variable {stretch : Schedule α} {stations : ι → List Station}
  {ends : ι → Option Ending → Except GroupError α → Prop}

theorem done {i : ι} {result : Except GroupError α} (empty : stations i = [])
    (h : ends i none result) : Tours stations ends (ExceptT.mk (pure result)) := by
  intro deeds result ran
  cases ran
  exact ⟨i, none, by rw [empty]; exact .done, h⟩

theorem silent {action : Action}
    {next : action.Answer → Program Action.interface (Except GroupError α)}
    (silence : action.isEffect = false)
    (h : ∀ answer, Tours stations ends (ExceptT.mk (next answer))) :
    Tours stations ends (ExceptT.mk (.ask action next)) := by
  intro deeds result ran
  obtain ⟨answer, later, rfl, remains⟩ := Action.ran_ask ran
  obtain ⟨i, halt, along, ended⟩ := h answer later result remains
  refine ⟨i, halt, ?_, ended⟩
  rw [effects_silent silence]
  exact along

theorem ask {action : Action} {next : action.Answer → Except GroupError α}
    {station : ι → Station} (effect : action.isEffect = true)
    (h : ∀ answer, ∃ i halt, (station i).Judges ⟨action, answer⟩ halt ∧
      ends i halt (next answer)) :
    Tours (fun i => [station i]) ends (act action >>= fun answer => demand (next answer)) := by
  intro deeds result ran
  obtain ⟨answer, later, rfl, remains⟩ := Action.ran_ask ran
  obtain ⟨rfl, rfl⟩ := Action.ran_done remains
  obtain ⟨i, halt, judges, ended⟩ := h answer
  refine ⟨i, halt, ?_, ended⟩
  rw [effects_effect effect]
  exact .single judges

theorem reading [Nonempty ι] (action : Action) (post : ι → α → Prop)
    (read : action.Answer → Except GroupError α) (effect : action.isEffect = true)
    (h : ∀ value, ∃ i, post i value) :
    Tours (fun i => [.reading action (post i) read]) (fun i => passing (post i))
      (act action >>= fun answer => demand (read answer)) := by
  apply ask effect
  intro answer
  cases hr : read answer with
  | ok value =>
    obtain ⟨i, hi⟩ := h value
    have judges : passing (post i) none (read answer) := by
      rw [hr]
      exact ⟨rfl, hi⟩
    exact ⟨i, none, ⟨answer, rfl, judges⟩, rfl, hi⟩
  | error error =>
    let i : ι := Classical.choice inferInstance
    have judges : passing (post i) (some (.error error)) (read answer) := by
      rw [hr]
      rfl
    exact ⟨i, some (.error error), ⟨answer, rfl, judges⟩, rfl⟩

variable {post : ι → α → Prop} {after : α → Schedule β}
  {ends : μ → Option Ending → Except GroupError β → Prop}

/-- One stretch after the other. When the first fails, any itinerary of the second will do. -/
theorem bind [Nonempty κ] {all : μ → List Station} (rest : ι → κ → List Station)
    (join : ι → κ → μ) (first : stretch.Tours stations fun i => passing (post i))
    (last : ∀ i value, post i value → (after value).Tours (rest i) fun k => ends (join i k))
    (fails : ∀ i error, ends i (some (.error error)) (.error error))
    (joined : ∀ i k, all (join i k) = stations i ++ rest i k) :
    (stretch >>= after).Tours all ends := by
  intro deeds result ran
  rcases ran_bind ran with
    ⟨error, rfl, before⟩ | ⟨value, deeds, later, rfl, before, remains⟩
  · obtain ⟨i, halt, along, rfl⟩ := first deeds _ before
    let k : κ := Classical.choice inferInstance
    refine ⟨join i k, _, ?_, fails _ error⟩
    rw [joined]
    exact along.stop _
  · obtain ⟨i, halt, along, rfl, hv⟩ := first deeds _ before
    obtain ⟨k, halt, along', ended⟩ := last i value hv later result remains
    refine ⟨join i k, halt, ?_, ended⟩
    rw [joined, effects_append]
    exact along.append along'

theorem act (action : Action) {after : action.Answer → Schedule β} {station : Station}
    {all : μ → List Station} (effect : action.isEffect = true)
    (h : ∀ answer,
      (station.Judges ⟨action, answer⟩ none ∧ (after answer).Tours all ends) ∨
      ∃ ending, station.Judges ⟨action, answer⟩ (some ending) ∧
        (after answer).Tours (fun _ => []) fun i _ => ends i (some ending)) :
    (Schedule.act action >>= after).Tours (fun i => station :: all i) ends := by
  intro deeds result ran
  obtain ⟨answer, later, rfl, remains⟩ := Action.ran_ask ran
  rw [effects_effect effect]
  rcases h answer with ⟨passed, goes⟩ | ⟨ending, stopped, goes⟩
  · obtain ⟨i, halt, along, ended⟩ := goes later result remains
    exact ⟨i, halt, .pass passed along, ended⟩
  · obtain ⟨i, halt, along, ended⟩ := goes later result remains
    refine ⟨i, some ending, ?_, ended⟩
    rw [along.nothing.1]
    exact .halt stopped

theorem print {next : Unit → Schedule β} {all : μ → List Station} (text : String)
    (h : (next ()).Tours all ends) : (Schedule.print text >>= next).Tours all ends :=
  silent rfl fun _ => h

theorem note {next : Unit → Schedule β} {all : μ → List Station} (severity : Severity)
    (rank : Rank) (message : String) (h : (next ()).Tours all ends) :
    (Schedule.note severity rank message >>= next).Tours all ends :=
  silent rfl fun _ => h

end Tours

/-- There is a single itinerary, and only failures end it early. -/
abbrev Passes (stations : List Station) (stretch : Schedule α) : Prop :=
  stretch.Tours (fun _ : Unit => stations) fun _ => passing fun _ => True

namespace Passes

variable {stretch : Schedule α} {stations : List Station}

theorem pure (value : α) : Passes [] (Pure.pure value) := .done (i := ()) rfl ⟨rfl, trivial⟩

theorem requiring (action : Action) (read : action.Answer → Except GroupError α)
    (effect : action.isEffect = true) :
    Passes [.requiring action read] (act action >>= fun answer => demand (read answer)) :=
  .reading action (fun _ _ => True) read effect fun _ => ⟨(), trivial⟩

theorem followed [Nonempty μ] {all : μ → List Station} {after : α → Schedule β}
    {ends : μ → Option Ending → Except GroupError β → Prop}
    (first : Passes stations stretch) (last : ∀ value, (after value).Tours all ends)
    (fails : ∀ i error, ends i (some (.error error)) (.error error)) :
    (stretch >>= after).Tours (fun i => stations ++ all i) ends :=
  first.bind (fun _ => all) (fun _ i => i) (fun _ value _ => last value) fails fun _ _ => rfl

theorem map (h : Passes stations stretch) (f : α → β) :
    Passes stations (stretch >>= fun value => Pure.pure (f value)) :=
  h.bind (fun _ _ => []) (fun _ i => i) (fun _ value _ => pure (f value)) (fun _ _ => rfl)
    fun _ _ => (List.append_nil stations).symm

end Passes
end Schedule
end FaultDrill
