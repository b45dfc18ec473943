import FaultDrill.Proofs.Agreement
import FaultDrill.Proofs.Stations
set_option autoImplicit false

/-!
# The discipline of a faulty run

Whatever its group and its injector answer, a participant of a faulty run does nothing out of
turn: it follows its itinerary, stops at the first failure that is not excused, and gives itself at
most one fault, after which it does nothing more unless it survives.
-/
namespace FaultDrill
open Text Wire Schedule

def Action.Deed.error? : Action.Deed → Option GroupError
  | ⟨.call .barrier, .error error⟩ | ⟨.call (.send ..), .error error⟩ => some error
  | ⟨.call .finalize, .error error⟩ | ⟨.call (.recv ..), .error error⟩ => some error
  | ⟨.call (.broadcast ..), .error error⟩ => some error
  | _ => none

def injections (deeds : List Action.Deed) : List (FaultCode × FaultOutcome) :=
  deeds.filterMap fun
    | ⟨.inject code, outcome⟩ => some (code, outcome)
    | _ => none

theorem injections_append (first last : List Action.Deed) :
    injections (first ++ last) = injections first ++ injections last :=
  List.filterMap_append

def Action.isInjection : Action → Bool
  | inject _ => true
  | _ => false

def Action.isCall : Action → Bool
  | call _ => true
  | _ => false

theorem Along.mem_action {stations : List Station} {deeds : List Action.Deed}
    {halt : Option Ending} (h : Along stations deeds halt) {deed : Action.Deed}
    (hd : deed ∈ deeds) : ∃ station ∈ stations, station.action = deed.1 :=
  List.mem_map.mp (h.actions_prefix.subset (List.mem_map_of_mem hd))

theorem injections_nil {deeds : List Action.Deed}
    (h : ∀ deed ∈ deeds, deed.1.isInjection = false) : injections deeds = [] := by
  apply List.filterMap_eq_nil_iff.mpr
  intro deed hd
  have harmless := h deed hd
  obtain ⟨action, answer⟩ := deed
  cases action with
  | inject => cases harmless
  | _ => rfl

namespace Station

/-- No fault is given there; only a success passes, and only a failure ends the run. -/
structure Ordinary (station : Station) : Prop where
  harmless : station.action.isInjection = false
  passes : ∀ deed, station.Judges deed none → Action.Deed.error? deed = none
  ends : ∀ deed ending, station.Judges deed (some ending) → ∃ error, ending = .error error

theorem reading_ordinary {α : Type} {action : Action} {post : α → Prop}
    {read : action.Answer → Except GroupError α} (harmless : action.isInjection = false)
    (strict : ∀ answer value, read answer = .ok value →
      Action.Deed.error? ⟨action, answer⟩ = none) : (reading action post read).Ordinary where
  harmless := harmless
  passes := by
    intro deed passed
    obtain ⟨answer, value, rfl, hr, -⟩ := reading_passes passed
    exact strict answer value hr
  ends := by
    intro deed ending stopped
    obtain ⟨answer, error, -, -, he⟩ := reading_ends stopped
    exact ⟨error, he⟩

theorem ok_of_bind {α β : Type} {answer : Except GroupError α} {read : α → Except GroupError β}
    {value : β} (h : answer.bind read = .ok value) : ∃ given, answer = .ok given := by
  cases answer with
  | ok given => exact ⟨given, rfl⟩
  | error => cases h

theorem meeting_ordinary : meeting.Ordinary :=
  reading_ordinary rfl fun answer _ h => by cases answer <;> cases h; rfl

theorem assembly_ordinary (approval : Except GroupError Unit) : (assembly approval).Ordinary :=
  reading_ordinary rfl fun _ _ h => by
    obtain ⟨_, rfl⟩ := ok_of_bind h
    rfl

theorem line_ordinary (text : String) : (line text).Ordinary :=
  reading_ordinary rfl fun answer _ h => by cases answer <;> cases h; rfl

theorem greeting_ordinary (source : Rank) : (greeting source).Ordinary :=
  reading_ordinary rfl fun _ _ h => by
    obtain ⟨_, rfl⟩ := ok_of_bind h
    rfl

theorem told_ordinary (payload : Option (List UInt8)) (parameters : RunParameters) :
    (told payload parameters).Ordinary :=
  reading_ordinary rfl fun _ _ h => by
    obtain ⟨_, rfl⟩ := ok_of_bind h
    rfl

theorem pause_ordinary (parameters : RunParameters) : (pause parameters).Ordinary :=
  reading_ordinary rfl fun _ _ _ => rfl

theorem census_ordinary (parameters : RunParameters) (gone : List Rank) :
    (census parameters gone).Ordinary :=
  reading_ordinary rfl fun _ _ _ => rfl

theorem closing_ordinary : closing.Ordinary :=
  reading_ordinary rfl fun answer _ h => by cases answer <;> cases h; rfl

end Station

namespace Schedule
open Station

variable {seat : Seat} {choice : Except ComponentError RunParameters} {parameters : RunParameters}
  {gone : List Rank} {deeds : List Action.Deed} {halt : Option Ending} {station : Station}

theorem mem_greetings (h : station ∈ greetings seat) :
    station.Ordinary ∧ station.action.isCall = true := by
  by_cases hub : seat.rank.isCoordinator = true
  · rw [greetings, if_pos hub] at h
    obtain ⟨source, -, rfl⟩ := List.mem_map.mp h
    exact ⟨greeting_ordinary source, rfl⟩
  · rw [greetings, if_neg hub] at h
    obtain rfl := List.mem_singleton.mp h
    exact ⟨line_ordinary seat.greeting, rfl⟩

theorem mem_opening (h : station ∈ opening seat choice parameters) :
    station.Ordinary ∧ station.action.isCall = true := by
  rcases List.mem_append.mp h with h | h
  · rcases List.mem_append.mp h with h | h
    · rcases List.mem_cons.mp h with rfl | h
      · exact ⟨meeting_ordinary, rfl⟩
      · exact mem_greetings h
    · obtain rfl := List.mem_singleton.mp h
      exact ⟨assembly_ordinary _, rfl⟩
  · obtain rfl := List.mem_singleton.mp h
    exact ⟨told_ordinary _ _, rfl⟩

theorem mem_farewells (h : station ∈ farewells seat parameters gone) :
    station.Ordinary ∨
      seat.rank.isCoordinator = true ∧ ∃ source, station = farewell parameters source := by
  by_cases hub : seat.rank.isCoordinator = true
  · rw [farewells, if_pos hub] at h
    rcases List.mem_cons.mp h with rfl | h
    · exact .inl (census_ordinary _ _)
    · obtain ⟨source, -, rfl⟩ := List.mem_map.mp h
      exact .inr ⟨hub, source, rfl⟩
  · rw [farewells, if_neg hub] at h
    obtain rfl := List.mem_singleton.mp h
    exact .inl (line_ordinary _)

theorem farewell_passes {source : Rank} {deed : Action.Deed}
    (h : (farewell parameters source).Judges deed none) :
    Action.Deed.error? deed = none ∨
      deed = ⟨.call (.recv source Frame.textTag), .error (.peerDeparted parameters.failing)⟩ := by
  obtain ⟨answer, line, rfl, hr, -⟩ := reading_passes h
  cases answer with
  | ok => exact .inl rfl
  | error error =>
    right
    cases error with
    | peerDeparted rank =>
      by_cases chosen : rank = parameters.failing
      · rw [chosen]
      · simp only [Except.bind, excused, if_neg chosen] at hr
        cases hr
    | _ => cases hr

theorem blow_judges {deed : Action.Deed} (h : (blow parameters).Judges deed halt) :
    (deed = ⟨.inject parameters.fault, .survived⟩ ∧ halt = none) ∨
      (deed = ⟨.inject parameters.fault, .terminated⟩ ∧ halt = some (.ok .terminated)) := by
  obtain ⟨outcome, rfl, he⟩ := h
  cases outcome with
  | survived => exact .inl ⟨rfl, he⟩
  | terminated => exact .inr ⟨rfl, he⟩

theorem reunion_judges {deed : Action.Deed} (h : (reunion parameters).Judges deed halt) :
    (deed = ⟨.call .barrier, .ok ()⟩ ∧ halt = none) ∨
      ∃ error, deed = ⟨.call .barrier, .error error⟩ ∧ halt = some (
        if error = .coordinatorLost ∧ parameters.failing.isCoordinator then .ok .coordinatorLost
        else .error error) := by
  obtain ⟨answer, rfl, he⟩ := h
  cases answer with
  | ok => exact .inl ⟨rfl, he⟩
  | error error => exact .inr ⟨error, rfl, he⟩

theorem mem_aftermath (h : station ∈ aftermath seat parameters gone) :
    station.Ordinary ∨ station = reunion parameters ∨
      seat.rank.isCoordinator = true ∧ ∃ source, station = farewell parameters source := by
  rcases List.mem_append.mp h with h | h
  · rcases List.mem_append.mp h with h | h
    · rcases List.mem_cons.mp h with rfl | h
      · exact .inl (pause_ordinary _)
      · exact .inr (.inl (List.mem_singleton.mp h))
    · exact (mem_farewells h).imp_right .inr
  · obtain rfl := List.mem_singleton.mp h
    exact .inl closing_ordinary

theorem mem_drill (h : station ∈ drill seat parameters gone) :
    station = pause parameters ∨ station = blow parameters ∨
      station ∈ aftermath seat parameters gone := by
  rcases List.mem_cons.mp h with rfl | h
  · exact .inl rfl
  · rcases List.mem_append.mp h with h | h
    · by_cases chosen : parameters.failing = seat.rank
      · rw [if_pos chosen] at h
        exact .inr (.inl (List.mem_singleton.mp h))
      · rw [if_neg chosen] at h
        cases h
    · exact .inr (.inr h)

/-- Only the coordinator goes on after a failure: when the chosen one has left and owes its
farewell. -/
theorem itinerary_passes (h : station ∈ itinerary seat choice parameters gone)
    {deed : Action.Deed} (passed : station.Judges deed none) :
    Action.Deed.error? deed = none ∨ seat.rank.isCoordinator = true ∧ ∃ source,
      deed = ⟨.call (.recv source Frame.textTag), .error (.peerDeparted parameters.failing)⟩ := by
  rcases List.mem_append.mp h with h | h
  · exact .inl ((mem_opening h).1.passes deed passed)
  · rcases mem_drill h with rfl | rfl | h
    · exact .inl ((pause_ordinary _).passes deed passed)
    · rcases blow_judges passed with ⟨rfl, -⟩ | ⟨-, he⟩
      · exact .inl rfl
      · cases he
    · rcases mem_aftermath h with ordinary | rfl | ⟨hub, source, rfl⟩
      · exact .inl (ordinary.passes deed passed)
      · rcases reunion_judges passed with ⟨rfl, -⟩ | ⟨error, -, he⟩
        · exact .inl rfl
        · cases he
      · exact (farewell_passes passed).imp_right fun left => ⟨hub, source, left⟩

theorem drill_cases (h : Along (drill seat parameters gone) deeds halt) : ∃ later,
    deeds = ⟨.sleep (.ofSeconds parameters.sleepSeconds), ()⟩ :: later ∧
    ((parameters.failing ≠ seat.rank ∧ Along (aftermath seat parameters gone) later halt) ∨
      parameters.failing = seat.rank ∧
        ((later = [⟨.inject parameters.fault, .terminated⟩] ∧ halt = some (.ok .terminated)) ∨
          ∃ rest, later = ⟨.inject parameters.fault, .survived⟩ :: rest ∧
            Along (aftermath seat parameters gone) rest halt)) := by
  rw [drill] at h
  cases h with
  | halt stopped =>
    obtain ⟨answer, error, -, he, -⟩ := reading_ends stopped
    cases he
  | @pass _ _ deed later _ passed along =>
    obtain ⟨answer, value, rfl, -, -⟩ := reading_passes passed
    refine ⟨later, rfl, ?_⟩
    by_cases chosen : parameters.failing = seat.rank
    · rw [if_pos chosen] at along
      refine .inr ⟨chosen, ?_⟩
      cases along with
      | halt stopped =>
        rcases blow_judges stopped with ⟨-, he⟩ | ⟨rfl, he⟩
        · cases he
        · exact .inl ⟨rfl, he⟩
      | pass passed along =>
        rcases blow_judges passed with ⟨rfl, -⟩ | ⟨-, he⟩
        · exact .inr ⟨_, rfl, along⟩
        · cases he
    · rw [if_neg chosen] at along
      exact .inl ⟨chosen, along⟩

theorem aftermath_injections (h : Along (aftermath seat parameters gone) deeds halt) :
    injections deeds = [] := by
  apply injections_nil
  intro deed hd
  obtain ⟨station, mem, he⟩ := h.mem_action hd
  rw [← he]
  rcases mem_aftermath mem with ordinary | rfl | ⟨-, source, rfl⟩
  · exact ordinary.harmless
  · rfl
  · rfl

theorem opening_calls (h : Along (opening seat choice parameters) deeds halt)
    {deed : Action.Deed} (hd : deed ∈ deeds) : deed.1.isCall = true := by
  obtain ⟨station, mem, he⟩ := h.mem_action hd
  rw [← he]
  exact (mem_opening mem).2

theorem opening_injections (h : Along (opening seat choice parameters) deeds halt) :
    injections deeds = [] := by
  apply injections_nil
  intro deed hd
  have call := opening_calls h hd
  obtain ⟨action, answer⟩ := deed
  cases action with
  | inject => cases call
  | _ => rfl

/-- Either no fault is given, to one who was not chosen or has not slept yet, or the agreed one is
given once. Whoever does not survive it does nothing more. -/
theorem itinerary_injections (h : Along (itinerary seat choice parameters gone) deeds halt) :
    (injections deeds = [] ∧
      (parameters.failing = seat.rank → ∀ time, (⟨.sleep time, ()⟩ : Action.Deed) ∉ deeds)) ∨
    parameters.failing = seat.rank ∧ (injections deeds = [(parameters.fault, .survived)] ∨
      injections deeds = [(parameters.fault, .terminated)] ∧ halt = some (.ok .terminated) ∧
        ∃ before, deeds = before ++ [⟨.inject parameters.fault, .terminated⟩]) := by
  rcases h.split with ⟨_, rfl, before⟩ | ⟨first, last, rfl, before, after⟩
  · refine .inl ⟨opening_injections before, fun _ time slept => ?_⟩
    cases opening_calls before slept
  · rw [injections_append, opening_injections before, List.nil_append]
    obtain ⟨later, rfl, ⟨spared, rest⟩ | ⟨chosen, ⟨rfl, rfl⟩ | ⟨rest, rfl, remains⟩⟩⟩ :=
      drill_cases after
    · have none := aftermath_injections rest
      exact .inl ⟨none, fun chosen => absurd chosen spared⟩
    · exact .inr ⟨chosen, .inr ⟨rfl, rfl, first ++ [_], by simp; rfl⟩⟩
    · refine .inr ⟨chosen, .inl ?_⟩
      exact congrArg ((parameters.fault, .survived) :: ·) (aftermath_injections remains)

/-- What a participant has done in a faulty run that told it these parameters and who is gone, and
how the run ended. -/
structure Disciplined (seat : Seat) (choice : Except ComponentError RunParameters)
    (parameters : RunParameters) (gone : List Rank) (deeds : List Action.Deed)
    (result : Except GroupError RunReport) : Prop where
  ordered : deeds.map Sigma.fst <+: (itinerary seat choice parameters gone).map Station.action
  judged : ∃ halt, Along (itinerary seat choice parameters gone) deeds halt ∧
    reports seat parameters halt result
  /-- Nothing is done after a failure, but for the farewells after that of the chosen one. -/
  stops : ∀ before deed after, deeds = before ++ deed :: after → after ≠ [] →
    Action.Deed.error? deed = none ∨ seat.rank.isCoordinator = true ∧ ∃ source,
      deed = ⟨.call (.recv source Frame.textTag), .error (.peerDeparted parameters.failing)⟩
  spared : parameters.failing ≠ seat.rank → injections deeds = []
  once : injections deeds = [] ∨ ∃ outcome, injections deeds = [(parameters.fault, outcome)]
  struck : parameters.failing = seat.rank →
    (∃ time, (⟨.sleep time, ()⟩ : Action.Deed) ∈ deeds) → injections deeds ≠ []
  terminated : ∀ code, (code, .terminated) ∈ injections deeds →
    (∃ before, deeds = before ++ [⟨.inject code, .terminated⟩]) ∧
      result.map RunReport.outcome = .ok .terminated

theorem disciplined_of_along (along : Along (itinerary seat choice parameters gone) deeds halt)
    {result : Except GroupError RunReport} (ended : reports seat parameters halt result) :
    Disciplined seat choice parameters gone deeds result where
  ordered := along.actions_prefix
  judged := ⟨halt, along, ended⟩
  stops := by
    intro before deed after hd more
    subst hd
    obtain ⟨station, mem, passed⟩ := along.passed more
    exact itinerary_passes mem passed
  spared := by
    intro spared
    rcases itinerary_injections along with ⟨none, -⟩ | ⟨chosen, -⟩
    · exact none
    · exact absurd chosen spared
  once := by
    rcases itinerary_injections along with ⟨none, -⟩ | ⟨-, once | ⟨once, -⟩⟩
    · exact .inl none
    · exact .inr ⟨_, once⟩
    · exact .inr ⟨_, once⟩
  struck := by
    rintro chosen ⟨time, slept⟩ none
    rcases itinerary_injections along with ⟨-, awake⟩ | ⟨-, once | ⟨once, -⟩⟩
    · exact awake chosen time slept
    · rw [none] at once
      cases once
    · rw [none] at once
      cases once
  terminated := by
    intro code mem
    rcases itinerary_injections along with ⟨none, -⟩ | ⟨-, once | ⟨once, rfl, last⟩⟩
    · rw [none] at mem
      cases mem
    · rw [once] at mem
      cases List.mem_singleton.mp mem
    · rw [once] at mem
      cases List.mem_singleton.mp mem
      exact ⟨last, ended.1⟩

/-- What is done before there is a choice: the coordinator makes it once everybody has met twice. -/
def assemble (seat : Seat) : Schedule (List String) := do
  barrier
  let greetings ← exchangeGreetings seat
  barrier
  return greetings

theorem assemble_passes (seat : Seat) :
    (assemble seat).Passes (meeting :: greetings seat ++ [meeting]) := by
  apply barrier_passes.followed
  · intro _
    apply (greetings_passes seat).followed
    · exact fun greetings => barrier_passes.map fun _ => greetings
    · exact fun _ _ => rfl
  · exact fun _ _ => rfl

theorem faulty_eq (seat : Seat) (choice : Except ComponentError RunParameters) :
    faulty seat choice = assemble seat >>= fun greetings =>
      agreeOnRun seat choice >>= fun parameters => proceed seat parameters greetings := by
  simp only [assemble, bind_assoc, pure_bind]
  rfl

/-- Whatever a participant of a faulty run is answered, it follows the itinerary of the parameters
that its broadcast gives it, and of those who are then known to have left. The coordinator
broadcasts its choice, which is one of the participants, and the others broadcast nothing. Up to
the choice a run does the same whatever will be chosen, so that it has done just this when a draw
does not come to an end. -/
theorem schedule_is_followed {seat : Seat} (inhabited : seat.size ≠ 0)
    (answers : Action.interface.Surroundings) :
    let before := (assemble seat).run.meet answers []
    (∃ halt, Along (meeting :: greetings seat ++ [meeting]) (effects before.1) halt ∧
      passing (fun _ => True) halt before.2) ∧
    ∀ choice,
      let run := (faulty seat choice).run.meet answers []
      before.1 <+: run.1 ∧ (∀ error, before.2 = .error error → run = (before.1, .error error)) ∧
      (∃ parameters gone, Disciplined seat choice parameters gone (effects run.1) run.2) ∧
      ∀ sleep fault attempts draws rest,
        (seat.rank.isCoordinator = true →
          RunParameters.resolve? sleep fault seat.size attempts draws = some (choice, rest)) →
        approved seat choice = .ok () ∧ ∃ failing : Rank, failing.index < seat.size ∧
          payload seat choice = if seat.rank.isCoordinator then
            some (encode (⟨sleep.getD 0, fault.getD .fallback, failing⟩ : RunParameters))
          else none := by
  intro before
  refine ⟨?_, fun choice => ?_⟩
  · obtain ⟨_, halt, along, ended⟩ :=
      assemble_passes seat _ _ (Program.ran_meet answers [] (assemble seat).run)
    exact ⟨halt, along, ended⟩
  · have ⟨begins, stops⟩ := meet_bind (assemble seat) (fun greetings =>
      agreeOnRun seat choice >>= fun parameters => proceed seat parameters greetings) answers []
    rw [← faulty_eq] at begins stops
    refine ⟨begins, stops, ?_, fun sleep fault attempts draws rest resolves => ?_⟩
    · obtain ⟨⟨parameters, gone⟩, halt, along, ended⟩ :=
        faulty_tours seat choice _ _ (Program.ran_meet answers [] (faulty seat choice).run)
      exact ⟨parameters, gone, disciplined_of_along along ended⟩
    · by_cases hub : seat.rank.isCoordinator = true
      · obtain ⟨failing, hlt, rfl⟩ := RunParameters.resolve_eq inhabited (resolves hub)
        simp only [approved, payload, if_pos hub]
        exact ⟨rfl, failing, hlt, rfl⟩
      · simp only [approved, payload, if_neg hub]
        exact ⟨trivial, .coordinator, UInt32.pos_iff_ne_zero.mpr inhabited, trivial⟩

/-- The broadcast gives these parameters, and whoever is on the other side of a line has left once
the participant has slept. -/
def deserted (told : RunParameters) (left : Rank → GroupError) : Action.interface.Surroundings :=
  fun past (action : Action) =>
    let slept := past.any fun deed => match deed.1 with | .sleep _ => true | _ => false
    match action with
    | .call .barrier | .call .finalize => .ok ()
    | .call (.send target ..) => if slept then .error (left target) else .ok ()
    | .call (.recv source _) => if slept then .error (left source) else .ok (Utf8.encode "hello")
    | .call (.broadcast ..) => .ok (encode told)
    | .call .departed => ([] : List Rank)
    | .inject _ => FaultOutcome.survived
    | .sleep _ | .print _ | .note _ => ()

/-- A coordinator that chooses its only member, and comes to the end without its farewell. -/
theorem schedule_is_followed_deserted :
    let choice : Except ComponentError RunParameters := .ok ⟨1, .fallback, ⟨1⟩⟩
    let run := (faulty ⟨.coordinator, 2, "hello"⟩ choice).run.meet
      (deserted ⟨1, .fallback, ⟨1⟩⟩ .peerDeparted) []
    (∃ parameters gone, Disciplined ⟨.coordinator, 2, "hello"⟩ choice parameters gone
      (effects run.1) run.2) ∧
    (∃ failing : Rank, failing.index < 2 ∧ payload ⟨.coordinator, 2, "hello"⟩ choice =
      some (encode (⟨1, .fallback, failing⟩ : RunParameters))) ∧
    run.2.map RunReport.outcome = .ok .completed ∧ (effects run.1).length = 10 := by
  intro choice run
  have resolves : RunParameters.resolve? (some 1) none 2 1 (Draws.ofList [2147483648]) =
      some (choice, (Draws.ofList [2147483648]).drop 1) := rfl
  obtain ⟨-, follows⟩ := @schedule_is_followed ⟨.coordinator, 2, "hello"⟩ (by decide)
    (deserted ⟨1, .fallback, ⟨1⟩⟩ .peerDeparted)
  obtain ⟨-, -, disciplined, broadcasts⟩ := follows choice
  obtain ⟨-, supplied⟩ := broadcasts _ _ _ _ _ fun _ => resolves
  exact ⟨disciplined, supplied, rfl, rfl⟩

end Schedule
end FaultDrill
