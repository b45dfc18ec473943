import FaultDrill.Proofs.Discipline
import FaultDrill.Proofs.Faulty
import FaultDrill.Schedule.Rehearsal
set_option autoImplicit false

namespace FaultDrill.Schedule
open Wire Station

variable {seat : Seat} {choice : Except ComponentError RunParameters} {parameters : RunParameters}
  {gone : List Rank} {deeds : List Action.Deed} {halt : Option Ending}
  {result : Except GroupError RunReport}

/-- A broadcast has given these parameters. -/
def Told (deeds : List Action.Deed) (parameters : RunParameters) : Prop :=
  ∃ payload bytes, (⟨.call (.broadcast .coordinator payload), .ok bytes⟩ : Action.Deed) ∈ deeds ∧
    decode bytes = .ok parameters

theorem parametersOf_ok {bytes : List UInt8} :
    parametersOf bytes = .ok parameters ↔ decode bytes = .ok parameters := by
  unfold parametersOf
  split
  · simp [*]
  · simp [*]

theorem told_passes {payload : Option (List UInt8)} {deed : Action.Deed}
    (h : (told payload parameters).Judges deed none) : ∃ bytes,
      deed = ⟨.call (.broadcast .coordinator payload), .ok bytes⟩ ∧
      decode bytes = .ok parameters := by
  obtain ⟨answer, value, rfl, hr, rfl⟩ := reading_passes h
  cases answer with
  | error error => cases hr
  | ok bytes => exact ⟨bytes, rfl, parametersOf_ok.mp hr⟩

theorem told_ends {payload : Option (List UInt8)} {deed : Action.Deed} {ending : Ending}
    (h : (told payload parameters).Judges deed (some ending)) (other : RunParameters) :
    ¬Told [deed] other := by
  rintro ⟨payload', bytes, mem, decodes⟩
  obtain ⟨answer, error, rfl, hr, -⟩ := reading_ends h
  cases List.mem_singleton.mp mem
  change parametersOf bytes = .error error at hr
  rw [parametersOf_ok.mpr decodes] at hr
  cases hr

theorem Told.mem_station {stations : List Station} (along : Along stations deeds halt)
    (h : Told deeds parameters) :
    ∃ station ∈ stations, ∃ payload, station.action = .call (.broadcast .coordinator payload) := by
  obtain ⟨payload, bytes, mem, -⟩ := h
  obtain ⟨station, hs, he⟩ := along.mem_action mem
  exact ⟨station, hs, payload, he⟩

theorem gathering_untold (h : Along (gathering seat choice) deeds halt) :
    ¬Told deeds parameters := by
  intro told
  obtain ⟨station, mem, payload, he⟩ := told.mem_station h
  rcases List.mem_append.mp mem with mem | mem
  · rcases List.mem_cons.mp mem with rfl | mem
    · cases he
    · unfold greetings at mem
      split at mem
      · obtain ⟨source, -, rfl⟩ := List.mem_map.mp mem
        cases he
      · obtain rfl := List.mem_singleton.mp mem
        cases he
  · obtain rfl := List.mem_singleton.mp mem
    cases he

theorem itinerary_cases (h : Along (itinerary seat choice parameters gone) deeds halt) :
    ((∃ error, halt = some (.error error)) ∧ Along (opening seat choice parameters) deeds halt ∧
      ∀ other, ¬Told deeds other) ∨
    ∃ first broadcast last, deeds = first ++ broadcast :: last ∧
      Along (gathering seat choice) first none ∧
      (told (payload seat choice) parameters).Judges broadcast none ∧
      Along (drill seat parameters gone) last halt := by
  rcases h.split with ⟨ending, rfl, opens⟩ | ⟨first, last, rfl, opens, rest⟩
  · refine .inl ⟨?_, opens, fun other => ?_⟩
    · obtain ⟨station, mem, deed, stopped⟩ := opens.stopped
      obtain ⟨error, rfl⟩ := (mem_opening mem).1.ends deed ending stopped
      exact ⟨error, rfl⟩
    · rcases opens.split with ⟨_, -, gathers⟩ | ⟨first, last, rfl, gathers, tells⟩
      · exact gathering_untold gathers
      · cases tells with
        | halt stopped =>
          rintro ⟨payload, bytes, mem, decodes⟩
          rcases List.mem_append.mp mem with mem | mem
          · exact gathering_untold gathers ⟨payload, bytes, mem, decodes⟩
          · exact told_ends stopped other ⟨payload, bytes, mem, decodes⟩
        | pass _ rest => cases rest
  · rcases opens.split with ⟨_, he, -⟩ | ⟨first, tail, rfl, gathers, tells⟩
    · cases he
    · cases tells with
      | pass passed remaining =>
        cases remaining
        exact .inr ⟨first, _, last, by simp, gathers, passed, rest⟩

/-- A run that sleeps, gives a fault or has a report is past its broadcast. -/
def PastBroadcast (deeds : List Action.Deed) (result : Except GroupError RunReport) : Prop :=
  (∃ time, (⟨.sleep time, ()⟩ : Action.Deed) ∈ deeds) ∨ injections deeds ≠ [] ∨
    ∃ report, result = .ok report

theorem not_pastBroadcast {error : GroupError}
    (opens : Along (opening seat choice parameters) deeds halt)
    (failed : result.map RunReport.outcome = .error error) : ¬PastBroadcast deeds result := by
  rintro (⟨time, slept⟩ | struck | ⟨report, rfl⟩)
  · cases opening_calls opens slept
  · exact struck (opening_injections opens)
  · cases failed

theorem make_ok {sleep : UInt64} {fault : FaultCode} {failing : Rank} {size : UInt32}
    (h : RunParameters.make sleep fault failing size = .ok parameters) :
    parameters.failing.index < size := by
  rw [RunParameters.make] at h
  split at h
  · cases h
  · cases h
    exact UInt32.not_le.mp (by assumption)

/-- Whoever goes past the broadcast has the parameters that it received there. They name a
participant of the group if the bytes encode parameters that were made for it; if they name nobody,
nobody is given a fault. -/
theorem parameters_are_received {all : List Action.Deed}
    (ran : (faulty seat choice).run.Ran all result) (past : PastBroadcast (effects all) result) :
    ∃ bytes parameters,
      ⟨.call (.broadcast .coordinator (payload seat choice)), .ok bytes⟩ ∈ effects all ∧
      decode bytes = .ok parameters ∧
      (∀ report, result = .ok report → report.parameters = parameters) ∧
      (∀ sleep fault failing made, RunParameters.make sleep fault failing seat.size = .ok made →
        bytes = encode made → parameters.failing.index < seat.size) ∧
      (seat.size ≤ parameters.failing.index → seat.rank.index < seat.size →
        injections (effects all) = []) := by
  obtain ⟨⟨parameters, gone⟩, halt, along, ended⟩ := faulty_tours seat choice _ _ ran
  rcases itinerary_cases along with
    ⟨⟨error, rfl⟩, opens, -⟩ | ⟨first, broadcast, last, hd, -, told, -⟩
  · exact absurd past (not_pastBroadcast opens ended.1)
  · obtain ⟨bytes, rfl, decodes⟩ := told_passes told
    refine ⟨bytes, parameters, ?_, decodes, fun report hr => (ended.2 report hr).2, ?_, ?_⟩
    · rw [hd]
      exact List.mem_append_right _ List.mem_cons_self
    · rintro sleep fault failing made makes rfl
      rw [RunParameters.decode_encode] at decodes
      cases decodes
      exact (make_ok makes : made.failing.index < seat.size)
    · intro outside inside
      apply (disciplined_of_along along ended).spared
      intro chosen
      rw [chosen] at outside
      exact absurd inside (UInt32.not_lt.mpr outside)

theorem parameters_are_received_deserted :
    let choice : Except ComponentError RunParameters := .ok ⟨1, .fallback, ⟨1⟩⟩
    let run := (faulty ⟨.coordinator, 2, "hello"⟩ choice).run.meet
      (deserted ⟨1, .fallback, ⟨1⟩⟩ .peerDeparted) []
    (∃ report, run.2 = .ok report) ∧ ∃ bytes parameters,
      ⟨.call (.broadcast .coordinator (payload ⟨.coordinator, 2, "hello"⟩ choice)), .ok bytes⟩ ∈
        effects run.1 ∧ decode bytes = .ok parameters ∧
      ∀ report, run.2 = .ok report → report.parameters = parameters := by
  intro choice run
  have returns : ∃ report, run.2 = .ok report := ⟨_, rfl⟩
  obtain ⟨bytes, parameters, mem, decodes, holds, -, -⟩ :=
    parameters_are_received (Program.ran_meet _ [] _) (.inr (.inr returns))
  exact ⟨returns, bytes, parameters, mem, decodes, holds⟩

/-- A member of three that is told of a seventh participant sleeps, gives nobody a fault, and
completes its run. -/
theorem outsider_is_a_control_run :
    let script : Script :=
      ⟨[], [], [], [], [.give (encode (⟨1, .divideByZero, ⟨7⟩⟩ : RunParameters))], []⟩
    let run := Rehearsal.run (faulty ⟨⟨1⟩, 3, "hello"⟩ (.error (.protocol ""))) script .survived
    ∃ report, run.1 = .ok report ∧ ¬report.parameters.failing.index < 3 ∧
      report.outcome = .completed ∧ run.2.injected = [] ∧ run.2.elapsed = 2_000_000_000 :=
  ⟨⟨⟨1⟩, ⟨1, .divideByZero, ⟨7⟩⟩, [], [], .completed⟩, rfl, by decide, rfl, rfl, rfl⟩

theorem member_drill {station : Station} (member : seat.rank.isCoordinator = false)
    (h : station ∈ drill seat parameters gone) :
    station = pause parameters ∨ station = blow parameters ∨ station = reunion parameters ∨
      station = line seat.rank.farewell ∨ station = closing := by
  rcases mem_drill h with rfl | rfl | h
  · exact .inl rfl
  · exact .inr (.inl rfl)
  · rw [aftermath, farewells, member] at h
    have listed : station = pause parameters ∨ station = reunion parameters ∨
        station = line seat.rank.farewell ∨ station = closing := by simpa using h
    exact listed.imp_right .inr

theorem member_told (member : seat.rank.isCoordinator = false)
    (h : Along (drill seat parameters gone) deeds halt) (other : RunParameters) :
    ¬Told deeds other := by
  intro told
  obtain ⟨station, mem, payload, he⟩ := told.mem_station h
  rcases member_drill member mem with rfl | rfl | rfl | rfl | rfl <;> cases he

theorem told_once {first last : List Action.Deed} {broadcast : Action.Deed}
    {known : RunParameters} (member : seat.rank.isCoordinator = false)
    (gathers : Along (gathering seat choice) first none)
    (told : (told (payload seat choice) known).Judges broadcast none)
    (drills : Along (drill seat known gone) last halt)
    (knows : Told (first ++ broadcast :: last) parameters) : parameters = known := by
  obtain ⟨payload, bytes, mem, decodes⟩ := knows
  rcases List.mem_append.mp mem with mem | mem
  · exact absurd ⟨payload, bytes, mem, decodes⟩ (gathering_untold gathers)
  · rcases List.mem_cons.mp mem with rfl | mem
    · obtain ⟨bytes', he, decodes'⟩ := told_passes told
      cases he
      rw [decodes] at decodes'
      cases decodes'
      rfl
    · exact absurd ⟨payload, bytes, mem, decodes⟩ (member_told member drills parameters)

theorem failed_late {first last : List Action.Deed} {broadcast deed : Action.Deed}
    {error : GroupError} (gathers : Along (gathering seat choice) first none)
    (told : (told (payload seat choice) parameters).Judges broadcast none)
    (mem : deed ∈ first ++ broadcast :: last) (failed : Action.Deed.error? deed = some error) :
    deed ∈ last := by
  rcases List.mem_append.mp mem with mem | mem
  · obtain ⟨station, hs, passed | ⟨_, he, -⟩⟩ := gathers.judged mem
    · have opens := mem_opening (List.mem_append_left [Station.told _ parameters] hs)
      rw [opens.1.passes deed passed] at failed
      cases failed
    · cases he
  · rcases List.mem_cons.mp mem with rfl | mem
    · rw [(told_ordinary _ _).passes deed told] at failed
      cases failed
    · exact mem

theorem member_ends {station : Station} (member : seat.rank.isCoordinator = false)
    (chosen : parameters.failing.isCoordinator = true) (h : station ∈ drill seat parameters gone)
    {deed : Action.Deed} {ending : Ending} (stopped : station.Judges deed (some ending))
    {error : GroupError} (failed : Action.Deed.error? deed = some error) :
    (deed.1 = .call .barrier ∧ error = .coordinatorLost ∧ ending = .ok .coordinatorLost) ∨
      ((deed.1 ≠ .call .barrier ∨ error ≠ .coordinatorLost) ∧ ending = .error error) := by
  rcases member_drill member h with rfl | rfl | rfl | rfl | rfl
  · obtain ⟨answer, error, -, hr, -⟩ := reading_ends stopped
    cases hr
  · rcases blow_judges stopped with ⟨rfl, -⟩ | ⟨rfl, -⟩ <;> cases failed
  · rcases reunion_judges stopped with ⟨-, he⟩ | ⟨_, rfl, he⟩
    · cases he
    · cases failed
      cases he
      by_cases lost : error = .coordinatorLost
      · exact .inl ⟨rfl, lost, if_pos ⟨lost, chosen⟩⟩
      · exact .inr ⟨.inr lost, if_neg fun both => lost both.1⟩
  · obtain ⟨_, error', rfl, rfl, rfl⟩ := reading_ends stopped
    cases failed
    exact .inr ⟨.inl nofun, rfl⟩
  · obtain ⟨_, error', rfl, rfl, rfl⟩ := reading_ends stopped
    cases failed
    exact .inr ⟨.inl nofun, rfl⟩

/-- Once a member is told that the coordinator was chosen, a lost coordinator ends its run well at
the last meeting; any other failure, and the loss of the coordinator at any other call, ends the
run as the failure that it is. -/
theorem coordinator_is_missed_once {all : List Action.Deed}
    (ran : (faulty seat choice).run.Ran all result) (member : seat.rank.isCoordinator = false)
    (knows : Told (effects all) parameters) (chosen : parameters.failing.isCoordinator = true)
    {deed : Action.Deed} (mem : deed ∈ effects all) {error : GroupError}
    (failed : Action.Deed.error? deed = some error) :
    (deed.1 = .call .barrier → error = .coordinatorLost →
      result.map RunReport.outcome = .ok .coordinatorLost) ∧
    (deed.1 ≠ .call .barrier ∨ error ≠ .coordinatorLost → result = .error error) := by
  obtain ⟨⟨known, gone⟩, halt, along, ended⟩ := faulty_tours seat choice _ _ ran
  rcases itinerary_cases along with
    ⟨-, -, untold⟩ | ⟨first, broadcast, last, hd, gathers, told, drills⟩
  · exact absurd knows (untold parameters)
  · rw [hd] at knows mem
    obtain rfl := told_once member gathers told drills knows
    have last_mem := failed_late gathers told mem failed
    obtain ⟨station, hs, passed | ⟨ending, rfl, stopped⟩⟩ := drills.judged last_mem
    · have along_mem := List.mem_append_right (opening seat choice parameters) hs
      rcases itinerary_passes along_mem passed with none | ⟨hub, -⟩
      · rw [none] at failed
        cases failed
      · rw [member] at hub
        cases hub
    · have ends : result.map RunReport.outcome = ending := ended.1
      rcases member_ends member chosen hs stopped failed with ⟨last, lost, rfl⟩ | ⟨other, rfl⟩
      · refine ⟨fun _ _ => ends, ?_⟩
        rintro (elsewhere | unlost)
        · exact absurd last elsewhere
        · exact absurd lost unlost
      · refine ⟨fun last lost => ?_, fun _ => ?_⟩
        · rcases other with elsewhere | unlost
          · exact absurd last elsewhere
          · exact absurd lost unlost
        · cases result with
          | ok => cases ends
          | error => cases ends; rfl

theorem coordinator_is_missed_once_deserted :
    ((faulty ⟨⟨1⟩, 3, "hello"⟩ (.error (.protocol ""))).run.meet
      (deserted ⟨0, .fallback, .coordinator⟩ fun _ => .coordinatorLost) []).2 =
        .error .coordinatorLost := by
  let run := (faulty ⟨⟨1⟩, 3, "hello"⟩ (.error (.protocol ""))).run.meet
    (deserted ⟨0, .fallback, .coordinator⟩ fun _ => .coordinatorLost) []
  have broadcast : (effects run.1)[3]? = some ⟨.call (.broadcast .coordinator none),
      .ok (encode (⟨0, .fallback, .coordinator⟩ : RunParameters))⟩ := rfl
  have farewell : (effects run.1)[7]? = some ⟨.call (.send .coordinator Frame.textTag
      (Text.Utf8.encode (⟨1⟩ : Rank).farewell)), .error .coordinatorLost⟩ := rfl
  have knows : Told (effects run.1) ⟨0, .fallback, .coordinator⟩ :=
    ⟨_, _, List.mem_of_getElem? broadcast, rfl⟩
  exact (coordinator_is_missed_once (Program.ran_meet _ [] _) rfl knows rfl
    (List.mem_of_getElem? farewell) rfl).2 (.inl nofun)

/-- The loss of a coordinator that was chosen, at the farewell of a member of three. -/
theorem coordinator_lost_at_farewell :
    let script : Script := ⟨[], [.usual, .fail .coordinatorLost], [], [],
      [.give (encode (⟨0, .divideByZero, .coordinator⟩ : RunParameters))], []⟩
    let run := Rehearsal.run (faulty ⟨⟨1⟩, 3, "hello"⟩ (.error (.protocol ""))) script .survived
    run.1 = .error .coordinatorLost ∧ run.1.map RunReport.outcome ≠ .ok .coordinatorLost :=
  ⟨rfl, nofun⟩

end FaultDrill.Schedule
