import FaultDrill.Proofs.Itinerary
set_option autoImplicit false

namespace FaultDrill
open Text Wire Schedule

namespace Station

/-- Everybody meets. A coordinator whose choice was refused ends its run here. -/
def assembly (choice : Except GroupError Unit) : Station :=
  requiring (.call .barrier) fun answer => answer.bind fun _ => choice

def meeting : Station := requiring (.call .barrier) id

def line (text : String) : Station :=
  requiring (.call (.send .coordinator Frame.textTag (Utf8.encode text))) id

def lineOf (source : Rank) (bytes : List UInt8) : Except GroupError String :=
  match Utf8.decode bytes with
  | .ok line => .ok line
  | .error fault => .error (.protocol s!"Rank {source} sent a non UTF-8 line: {fault.message}")

def greeting (source : Rank) : Station :=
  requiring (.call (.recv source Frame.textTag)) fun answer => answer.bind (lineOf source)

def parametersOf (bytes : List UInt8) : Except GroupError RunParameters :=
  match decode bytes with
  | .ok parameters => .ok parameters
  | .error fault => .error (.protocol s!"Failed to deserialize broadcast value: {fault.message}")

/-- The broadcast gives just these parameters. -/
def told (payload : Option (List UInt8)) (parameters : RunParameters) : Station :=
  reading (.call (.broadcast .coordinator payload)) (· = parameters) fun answer =>
    answer.bind parametersOf

def pause (parameters : RunParameters) : Station :=
  requiring (.sleep (.ofSeconds parameters.sleepSeconds)) fun _ => .ok ()

def blow (parameters : RunParameters) : Station :=
  ⟨.inject parameters.fault, fun answer halt =>
    halt = if answer = .terminated then some (.ok .terminated) else none⟩

/-- The last meeting ends the run well when the coordinator was chosen and is lost. -/
def reunion (parameters : RunParameters) : Station :=
  ⟨.call .barrier, fun answer halt => halt = match answer with
    | .ok () => none
    | .error error => some (
      if error = .coordinatorLost ∧ parameters.failing.isCoordinator then .ok .coordinatorLost
      else .error error)⟩

def accounted (parameters : RunParameters) (left : List Rank) : Except GroupError (List Rank) :=
  match left.find? (· ≠ parameters.failing) with
  | some rank => .error (.unexpectedDeparture rank)
  | none => .ok left

def census (parameters : RunParameters) (gone : List Rank) : Station :=
  reading (.call .departed) (· = gone) (accounted parameters)

/-- A line, or none from the chosen participant if it has left. -/
def excused (parameters : RunParameters) :
    Except GroupError String → Except GroupError (Option String)
  | .ok line => .ok (some line)
  | .error (.peerDeparted rank) =>
    if rank = parameters.failing then .ok none else .error (.unexpectedDeparture rank)
  | .error error => .error error

def farewell (parameters : RunParameters) (source : Rank) : Station :=
  requiring (.call (.recv source Frame.textTag)) fun answer =>
    excused parameters (answer.bind (lineOf source))

def closing : Station := requiring (.call .finalize) id

end Station

namespace Schedule
open Station

variable {seat : Seat} {choice : Except ComponentError RunParameters} {parameters : RunParameters}
  {gone : List Rank}

def payload (seat : Seat) (choice : Except ComponentError RunParameters) : Option (List UInt8) :=
  if seat.rank.isCoordinator then choice.toOption.map encode else none

/-- A refused choice is the coordinator's failure. -/
def approved (seat : Seat) (choice : Except ComponentError RunParameters) :
    Except GroupError Unit :=
  if seat.rank.isCoordinator then (choice.mapError .component).map fun _ => () else .ok ()

def greetings (seat : Seat) : List Station :=
  if seat.rank.isCoordinator then (Rank.members seat.size).map greeting else [line seat.greeting]

def gathering (seat : Seat) (choice : Except ComponentError RunParameters) : List Station :=
  meeting :: greetings seat ++ [assembly (approved seat choice)]

def opening (seat : Seat) (choice : Except ComponentError RunParameters)
    (parameters : RunParameters) : List Station :=
  gathering seat choice ++ [told (payload seat choice) parameters]

def farewells (seat : Seat) (parameters : RunParameters) (gone : List Rank) : List Station :=
  if seat.rank.isCoordinator then
    census parameters gone ::
      ((Rank.members seat.size).filter fun source => !gone.contains source).map
        (farewell parameters)
  else [line seat.rank.farewell]

def aftermath (seat : Seat) (parameters : RunParameters) (gone : List Rank) : List Station :=
  [pause parameters, reunion parameters] ++ farewells seat parameters gone ++ [closing]

def drill (seat : Seat) (parameters : RunParameters) (gone : List Rank) : List Station :=
  pause parameters :: (if parameters.failing = seat.rank then [blow parameters] else []) ++
    aftermath seat parameters gone

def itinerary (seat : Seat) (choice : Except ComponentError RunParameters)
    (parameters : RunParameters) (gone : List Rank) : List Station :=
  opening seat choice parameters ++ drill seat parameters gone

theorem demand_bind {α β : Type} (answer : Except GroupError α) (read : α → Except GroupError β) :
    (demand answer >>= fun value => demand (read value)) = demand (answer.bind read) := by
  cases answer <;> rfl

theorem barrier_passes : barrier.Passes [meeting] := .requiring (.call .barrier) id rfl

theorem send_passes (text : String) : (send .coordinator text).Passes [line text] :=
  .requiring (.call (.send .coordinator Frame.textTag (Utf8.encode text))) id rfl

theorem finalize_passes : finalize.Passes [closing] := .requiring (.call .finalize) id rfl

theorem sleep_passes (parameters : RunParameters) :
    (sleep parameters.sleepSeconds).Passes [pause parameters] :=
  .requiring (.sleep (.ofSeconds parameters.sleepSeconds)) (fun _ => .ok ()) rfl

theorem receiveText_eq (source : Rank) : receiveText source =
    act (.call (.recv source Frame.textTag)) >>= fun answer =>
      demand (answer.bind (lineOf source)) := by
  have h : receiveText source = recv source >>= fun bytes => demand (lineOf source bytes) := by
    apply congrArg (recv source >>= ·)
    funext bytes
    unfold lineOf
    cases Utf8.decode bytes <;> rfl
  rw [h, recv, bind_assoc]
  simp only [demand_bind]

theorem receiveText_passes (source : Rank) : (receiveText source).Passes [greeting source] := by
  rw [receiveText_eq]
  exact .requiring (.call (.recv source Frame.textTag)) (fun answer => answer.bind (lineOf source))
    rfl

theorem broadcastValue_eq (value : Option RunParameters) : broadcastValue value =
    act (.call (.broadcast .coordinator (value.map encode))) >>= fun answer =>
      demand (answer.bind parametersOf) := by
  have h : broadcastValue value =
      broadcast (value.map encode) >>= fun bytes => demand (parametersOf bytes) := by
    apply congrArg (broadcast (value.map encode) >>= ·)
    funext bytes
    unfold parametersOf
    cases (decode bytes : Except _ RunParameters) <;> rfl
  rw [h, broadcast, bind_assoc]
  simp only [demand_bind]

theorem broadcastValue_tours (value : Option RunParameters) :
    (broadcastValue value).Tours (fun parameters => [told (value.map encode) parameters])
      fun parameters => passing (· = parameters) := by
  rw [broadcastValue_eq]
  exact .reading (.call (.broadcast .coordinator (value.map encode)))
    (fun parameters value => value = parameters) (fun answer => answer.bind parametersOf) rfl
    fun parameters => ⟨parameters, rfl⟩

theorem hearFrom_passes (first count : Nat) :
    (hearFrom first count).Passes ((Rank.interval first count).map greeting) := by
  induction count generalizing first with
  | zero => exact .pure []
  | succ count ih =>
    apply (receiveText_passes ⟨UInt32.ofNat first⟩).followed
    · intro line
      apply Tours.print
      exact (ih (first + 1)).map (line :: ·)
    · exact fun _ _ => rfl

theorem greetings_passes (seat : Seat) : (exchangeGreetings seat).Passes (greetings seat) := by
  unfold exchangeGreetings greetings
  split
  · apply Tours.print
    exact (hearFrom_passes 1 (seat.size.toNat - 1)).map (seat.greeting :: ·)
  · exact (send_passes seat.greeting).map fun _ => []

/-- A refused choice ends the run after the meeting, and nothing is broadcast. -/
theorem assembly_tours {α ι : Type} [Nonempty ι] (approval : Except GroupError Unit)
    {next : Schedule α} {all : ι → List Station}
    {ends : ι → Option Ending → Except GroupError α → Prop} (h : next.Tours all ends)
    (fails : ∀ i error, ends i (some (.error error)) (.error error)) :
    (barrier >>= fun _ => demand approval >>= fun _ => next).Tours
      (fun i => assembly approval :: all i) ends := by
  have hb : (barrier >>= fun _ => demand approval >>= fun _ => next) =
      (act (.call .barrier) >>= fun answer => demand (answer.bind fun _ => approval)) >>=
        fun _ => next := by
    simp only [barrier, ← demand_bind, bind_assoc]
  rw [hb]
  exact (Passes.requiring (.call .barrier) (fun answer => answer.bind fun _ => approval)
    rfl).followed (fun _ => h) fails

theorem agreement_tours (seat : Seat) (choice : Except ComponentError RunParameters) :
    (barrier >>= fun _ => agreeOnRun seat choice).Tours
      (fun parameters => [assembly (approved seat choice), told (payload seat choice) parameters])
      fun parameters => passing (· = parameters) := by
  unfold agreeOnRun approved payload
  split
  · cases choice with
    | ok parameters =>
      apply assembly_tours (.ok ()) _ fun _ _ => rfl
      exact .print _ (broadcastValue_tours (some parameters))
    | error error =>
      exact assembly_tours (.error (.component error)) (broadcastValue_tours none)
        fun _ _ => rfl
  · exact assembly_tours (.ok ()) (broadcastValue_tours none) fun _ _ => rfl

def acknowledge (observer : Rank) (parameters : RunParameters) (others : Schedule (List String)) :
    Option String → Schedule (List String)
  | some line => print line >>= fun _ => others >>= fun lines => return line :: lines
  | none => notSurvived observer parameters.failing parameters.fault >>= fun _ => others

theorem attempt_ask {α β : Type} (action : Action) (read : action.Answer → Except GroupError α)
    (after : Except GroupError α → Schedule β) :
    (attempt (act action >>= fun answer => demand (read answer)) >>= after) =
      act action >>= fun answer => after (read answer) :=
  rfl

theorem farewellsFrom_heard (observer : Rank) (parameters : RunParameters) {departed : List Rank}
    {first : Nat} (count : Nat) (stays : departed.contains ⟨UInt32.ofNat first⟩ = false) :
    farewellsFrom observer parameters departed first (count + 1) =
      (act (.call (.recv ⟨UInt32.ofNat first⟩ Frame.textTag)) >>= fun answer =>
        demand (excused parameters (answer.bind (lineOf ⟨UInt32.ofNat first⟩)))) >>=
        acknowledge observer parameters
          (farewellsFrom observer parameters departed (first + 1) count) := by
  rw [farewellsFrom, stays, receiveText_eq, bind_assoc]
  apply (attempt_ask _ _ _).trans
  apply congrArg (act (.call (.recv ⟨UInt32.ofNat first⟩ Frame.textTag)) >>= ·)
  funext answer
  generalize answer.bind (lineOf ⟨UInt32.ofNat first⟩) = line
  cases line with
  | ok line => rfl
  | error error =>
    cases error with
    | peerDeparted rank =>
      by_cases chosen : rank = parameters.failing
      · subst chosen
        simp only [excused, if_true]
        rfl
      · simp only [excused, if_neg chosen]
        rfl
    | _ => rfl

theorem farewellsFrom_passes (observer : Rank) (parameters : RunParameters) (departed : List Rank)
    (first count : Nat) : (farewellsFrom observer parameters departed first count).Passes
      (((Rank.interval first count).filter fun source => !departed.contains source).map
        (farewell parameters)) := by
  induction count generalizing first with
  | zero => exact .pure []
  | succ count ih =>
    rw [Rank.interval]
    cases gone : departed.contains ⟨UInt32.ofNat first⟩ with
    | true =>
      rw [List.filter_cons_of_neg (by simpa using gone), farewellsFrom, if_pos gone]
      exact .note _ _ _ (ih (first + 1))
    | false =>
      rw [List.filter_cons_of_pos (by simpa using gone), farewellsFrom_heard _ _ _ gone]
      apply (Passes.requiring _ _ rfl).followed _ fun _ _ => rfl
      intro line
      cases line with
      | some line => exact .print _ ((ih (first + 1)).map (line :: ·))
      | none => exact .note _ _ _ (ih (first + 1))

theorem collectFarewells_eq (seat : Seat) (parameters : RunParameters) :
    collectFarewells seat parameters =
      (act (.call .departed) >>= fun left => demand (accounted parameters left)) >>= fun left =>
        print seat.rank.farewell >>= fun _ =>
          farewellsFrom seat.rank parameters left 1 (seat.size.toNat - 1) >>= fun others =>
            return seat.rank.farewell :: others := by
  rw [bind_assoc]
  apply congrArg (act (.call .departed) >>= ·)
  funext left
  unfold accounted
  cases left.find? (· ≠ parameters.failing) <;> rfl

/-- Of the itineraries the answer chooses the one without those who are known to have left. -/
theorem farewells_tours (seat : Seat) (parameters : RunParameters) :
    (exchangeFarewells seat parameters).Tours (farewells seat parameters) fun _ =>
      passing fun _ => True := by
  unfold exchangeFarewells
  cases hub : seat.rank.isCoordinator with
  | true =>
    rw [if_pos rfl, collectFarewells_eq]
    have first := Tours.reading (.call .departed) (fun gone left => left = gone)
      (accounted parameters) rfl fun left => ⟨left, rfl⟩
    apply first.bind (fun gone _ => ((Rank.members seat.size).filter fun source =>
      !gone.contains source).map (farewell parameters)) fun gone (_ : Unit) => gone
    · intro gone left hl
      subst hl
      apply Tours.print
      exact (farewellsFrom_passes _ _ _ _ _).map (seat.rank.farewell :: ·)
    · exact fun _ _ => rfl
    · intro gone _
      rw [farewells, hub]
      rfl
  | false =>
    intro deeds result ran
    obtain ⟨_, halt, along, ended⟩ := (send_passes seat.rank.farewell).map (fun _ => []) _ _ ran
    refine ⟨[], halt, ?_, ended⟩
    rw [farewells, hub]
    exact along

def reports (seat : Seat) (parameters : RunParameters) (halt : Option Ending)
    (result : Except GroupError RunReport) : Prop :=
  result.map RunReport.outcome = halt.getD (.ok .completed) ∧
    ∀ report, result = .ok report → report.rank = seat.rank ∧ report.parameters = parameters

theorem reports_error (seat : Seat) (parameters : RunParameters) (error : GroupError) :
    reports seat parameters (some (.error error)) (.error error) :=
  ⟨rfl, nofun⟩

variable {seat : Seat} {report : RunReport} (own : report.rank = seat.rank)
include own

theorem part_tours (completed : report.outcome = .completed) : (part seat report).Tours
    (fun gone => farewells seat report.parameters gone ++ [closing])
    fun _ => reports seat report.parameters := by
  apply (farewells_tours seat report.parameters).bind (fun _ _ => [closing])
    fun gone (_ : Unit) => gone
  · intro gone lines _
    apply finalize_passes.followed _ fun _ : Unit => reports_error seat report.parameters
    intro _
    apply Tours.note
    apply Tours.done (i := ()) rfl
    refine ⟨congrArg Except.ok completed, fun other hr => ?_⟩
    cases hr
    exact ⟨own, rfl⟩
  · exact fun _ => reports_error _ _
  · exact fun _ _ => rfl

theorem close_tours (completed : report.outcome = .completed) : (close seat report).Tours
    (fun gone => reunion report.parameters :: farewells seat report.parameters gone ++ [closing])
    fun _ => reports seat report.parameters := by
  apply Tours.act (.call .barrier) rfl
  intro answer
  cases answer with
  | ok => exact .inl ⟨⟨.ok (), rfl, rfl⟩, part_tours own completed⟩
  | error error =>
    right
    by_cases orphaned : error = .coordinatorLost ∧ report.parameters.failing.isCoordinator
    · refine ⟨.ok .coordinatorLost, ⟨.error error, rfl, congrArg some (if_pos orphaned).symm⟩, ?_⟩
      change Schedule.Tours _ _ (if _ then _ else _)
      rw [if_pos orphaned]
      apply Tours.note
      apply Tours.done (i := []) rfl
      refine ⟨rfl, fun other hr => ?_⟩
      cases hr
      exact ⟨own, rfl⟩
    · refine ⟨.error error, ⟨.error error, rfl, congrArg some (if_neg orphaned).symm⟩, ?_⟩
      change Schedule.Tours _ _ (if _ then _ else _)
      rw [if_neg orphaned]
      exact .done (i := []) rfl (reports_error _ _ _)

omit own in
theorem strike_tours {ι : Type} [Inhabited ι] {parameters : RunParameters} {lost : RunReport}
    {next : Schedule RunReport} {all : ι → List Station}
    (h : next.Tours all fun _ => reports seat parameters)
    (terminated : reports seat parameters (some (.ok .terminated)) (.ok lost)) :
    (strike seat.rank parameters >>= fun outcome =>
      if outcome = .terminated then return lost else next).Tours
      (fun i => (if parameters.failing = seat.rank then [blow parameters] else []) ++ all i)
      fun _ => reports seat parameters := by
  unfold strike
  by_cases chosen : parameters.failing = seat.rank
  · have must : parameters.mustFail seat.rank = true := beq_iff_eq.mpr chosen
    simp only [if_pos chosen, must, if_true]
    apply Tours.note
    apply Tours.act (.inject parameters.fault) rfl
    intro outcome
    cases outcome with
    | survived => exact .inl ⟨⟨.survived, rfl, rfl⟩, h⟩
    | terminated =>
      exact .inr ⟨_, ⟨.terminated, rfl, rfl⟩, .done (i := default) rfl terminated⟩
  · have must : parameters.mustFail seat.rank = false := beq_false_of_ne chosen
    simp only [if_neg chosen, must]
    exact h

def proceed (seat : Seat) (parameters : RunParameters) (greetings : List String) :
    Schedule RunReport := do
  note .debug seat.rank s!"Received run parameters: {parameters.inspect}"
  let report : RunReport := ⟨seat.rank, parameters, greetings, [], .completed⟩
  sleep parameters.sleepSeconds
  let outcome ← strike seat.rank parameters
  if outcome = .terminated then return { report with outcome := .terminated }
  else
    sleep parameters.sleepSeconds
    close seat report

omit own in
theorem proceed_tours (seat : Seat) (parameters : RunParameters) (greetings : List String) :
    (proceed seat parameters greetings).Tours (drill seat parameters) fun _ =>
      reports seat parameters := by
  apply Tours.note
  apply (sleep_passes parameters).followed _ fun _ => reports_error seat parameters
  intro _
  apply strike_tours
  · apply (sleep_passes parameters).followed _ fun _ => reports_error seat parameters
    exact fun _ => close_tours rfl rfl
  · refine ⟨rfl, fun other hr => ?_⟩
    cases hr
    exact ⟨rfl, rfl⟩

omit own in
theorem faulty_tours (seat : Seat) (choice : Except ComponentError RunParameters) :
    (faulty seat choice).Tours (fun known : RunParameters × List Rank =>
      itinerary seat choice known.1 known.2) fun known => reports seat known.1 := by
  have nested : ∀ parameters gone, itinerary seat choice parameters gone =
      [meeting] ++ (greetings seat ++ ([assembly (approved seat choice),
        told (payload seat choice) parameters] ++ drill seat parameters gone)) :=
    fun _ _ => by simp [itinerary, opening, gathering]
  have fails : ∀ (known : RunParameters × List Rank) error,
      reports seat known.1 (some (.error error)) (.error error) := fun _ => reports_error _ _
  simp only [nested]
  apply barrier_passes.followed _ fails
  intro _
  apply (greetings_passes seat).followed _ fails
  intro greetings
  rw [← bind_assoc]
  apply (agreement_tours seat choice).bind (drill seat) Prod.mk
  · intro parameters value hv
    subst hv
    exact proceed_tours seat value greetings
  · exact fun _ => reports_error _ _
  · exact fun _ _ => rfl

end Schedule
end FaultDrill
