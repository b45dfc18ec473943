import FaultDrill.Command.Grouprun
import FaultDrill.Proofs.Deadline
import FaultDrill.Proofs.Placement
import FaultDrill.Proofs.Waiting
set_option autoImplicit false

/-!
# Launching a group

Once the launcher has a port and the clock can show the deadline, and every process starts, the
launcher reports how each rank ended, in rank order, whatever the waiters of the other ranks do.
Every rank finds its place in the group among its variables. The launching command prints a line
for each rank and succeeds when all of them did.
-/
namespace FaultDrill

theorem WaitStatus.success_iff {status : WaitStatus} :
    status.success = true ↔ status = .exited 0 := by
  obtain ⟨raw⟩ := status
  simp [success, exited]

/-- What a report says of a rank, by how its process ends and when its group is killed. -/
structure RankExit.Tells (now : Moment) (last : Option Moment) (child : Child)
    (exit : RankExit) : Prop where
  natural : ∀ ended status, child.ending = some (ended, status) →
    (∀ deadline ∈ last, now.total + ended < deadline.total) →
    exit.status = status ∧ exit.timedOut = false
  killed : ∀ deadline ∈ last,
    (∀ ended status, child.ending = some (ended, status) → deadline.total < now.total + ended) →
    exit.status = .killed .kill ∧ exit.timedOut = true
  own : exit.timedOut = false → ∃ ended, child.ending = some (ended, exit.status)

namespace Launcher

variable {launcher : Launcher} {now : Moment} {last : Option Moment} {port : UInt16}
  {program : String} {start : Placement → Except SpawnFailure Child} {child : Rank → Child}
  {rank : Rank} {exit : RankExit}

def place (launcher : Launcher) (port : UInt16) (rank : Rank) : Placement :=
  ⟨rank, launcher.size, .ofIp launcher.host port, launcher.connectTimeout⟩

theorem size_pos (member : rank ∈ Rank.group launcher.size) : 1 ≤ launcher.size := by
  have inside := Rank.mem_group.mp member
  rw [UInt32.lt_iff_toNat_lt] at inside
  rw [UInt32.le_iff_toNat_le]
  exact Nat.succ_le_of_lt (Nat.zero_lt_of_lt inside)

theorem placement_eq (member : rank ∈ Rank.group launcher.size) :
    launcher.placement port rank = .ok (launcher.place port rank) := by
  unfold placement
  rw [Placement.make_eq_ok.mpr ⟨size_pos member, Rank.mem_group.mp member, rfl⟩]
  rfl

theorem spawn_eq (member : rank ∈ Rank.group launcher.size)
    (starts : start (launcher.place port rank) = .ok (child rank)) :
    launcher.spawn port program start rank = .ok (child rank) := by
  rw [spawn_placed (placement_eq member), starts]

/-- A launch that can be waited for: there are ranks, the clock can show the deadline, and where
there is none every process ends by itself. -/
structure Ready (launcher : Launcher) (now : Moment) (last : Option Moment)
    (child : Rank → Child) : Prop where
  inhabited : launcher.size ≠ 0
  shown : launcher.deadline? now = some last
  ends : last = none → ∀ rank ∈ Rank.group launcher.size, (child rank).ending ≠ none

theorem deadline_of_timeout {timeout : Duration} (shown : launcher.deadline? now = some last)
    (bounded : timeout ∈ launcher.timeout) :
    ∃ deadline ∈ last, deadline.total = now.total + timeout.totalNanos := by
  unfold deadline? at shown
  rw [show launcher.timeout = some timeout from bounded] at shown
  obtain ⟨deadline, added, rfl⟩ := Option.map_eq_some_iff.mp shown
  exact ⟨deadline, rfl, Moment.add_eq_some_iff.mp added⟩

theorem timeout_of_deadline {deadline : Moment} (shown : launcher.deadline? now = some last)
    (due : deadline ∈ last) :
    ∃ timeout ∈ launcher.timeout, deadline.total = now.total + timeout.totalNanos := by
  cases bounded : launcher.timeout with
  | none =>
    unfold deadline? at shown
    rw [bounded] at shown
    cases shown
    cases due
  | some timeout =>
    obtain ⟨same, set, total⟩ := deadline_of_timeout shown bounded
    cases Option.mem_unique due set
    exact ⟨timeout, rfl, total⟩

theorem Ready.bounded (ready : launcher.Ready now last child) :
    Waiters.Bounded launcher child := by
  intro unbounded
  refine ready.ends (Option.eq_none_iff_forall_not_mem.mpr fun deadline due => ?_)
  obtain ⟨timeout, bounded, -⟩ := timeout_of_deadline ready.shown due
  rw [unbounded] at bounded
  cases bounded

theorem run_eq (ready : launcher.Ready now last child)
    (starts : ∀ rank ∈ Rank.group launcher.size,
      start (launcher.place port rank) = .ok (child rank)) :
    launcher.run now (.ok port) program start =
      (Rank.group launcher.size).mapM fun rank => launcher.await rank (child rank) := by
  have spawned : (Rank.group launcher.size).mapM (launcher.spawn port program start) =
      .ok ((Rank.group launcher.size).map child) := by
    refine mapM_eq_ok (List.forall₂_map_right_iff.mpr (List.forall₂_same.mpr ?_))
    exact fun rank member => spawn_eq member (starts rank member)
  -- The processes come in rank order, so that every one is paired with its own rank.
  have paired : (Rank.group launcher.size).zip ((Rank.group launcher.size).map child) =
      (Rank.group launcher.size).map fun rank => (rank, child rank) := by
    simpa using List.zip_map' (f := id) (g := child) (l := Rank.group launcher.size)
  rw [run_inhabited ready.inhabited, ready.shown, Option.elim_some, spawned]
  change ((Rank.group launcher.size).zip ((Rank.group launcher.size).map child)).mapM _ = _
  rw [paired, List.mapM_map]
  rfl

theorem rank_of_await (h : launcher.await rank (child rank) = .ok exit) : exit.rank = rank := by
  cases reports_of_await h <;> rfl

theorem tells_of_await (shown : launcher.deadline? now = some last)
    (h : launcher.await rank (child rank) = .ok exit) : exit.Tells now last (child rank) where
  natural ended status ends early := by
    rw [await_natural ends] at h
    · cases h
      exact ⟨rfl, rfl⟩
    · intro timeout bounded
      obtain ⟨deadline, due, total⟩ := deadline_of_timeout shown bounded
      have := early deadline due
      omega
  killed deadline due late := by
    obtain ⟨timeout, bounded, total⟩ := timeout_of_deadline shown due
    rw [await_killed bounded] at h
    · cases h
      exact ⟨rfl, rfl⟩
    · intro ended status ends
      have := late ended status ends
      omega
  own alone := by
    cases reports_of_await h with
    | natural ends => exact ⟨_, ends⟩
    | killed => cases alone

theorem succeeds_iff (h : launcher.await rank (child rank) = .ok exit) :
    exit.success = true ↔ exit.timedOut = false ∧ exit.status = .exited 0 := by
  rw [RankExit.success, WaitStatus.success_iff]
  cases reports_of_await h with
  | natural => exact (and_iff_right rfl).symm
  | killed =>
    have unlike : WaitStatus.killed .kill ≠ .exited 0 := by decide
    exact iff_of_false unlike fun both => unlike both.2

/-- The exits of a group: one for each rank, in rank order. -/
structure AccountsFor (launcher : Launcher) (now : Moment) (last : Option Moment)
    (child : Rank → Child) (exits : List RankExit) : Prop where
  length : exits.length = launcher.size.toNat
  told : ∀ index < launcher.size.toNat, ∃ exit, exits[index]? = some exit ∧
    exit.rank = ⟨UInt32.ofNat index⟩ ∧ exit.Tells now last (child ⟨UInt32.ofNat index⟩)
  success : exits.all RankExit.success = true ↔
    ∀ exit ∈ exits, exit.timedOut = false ∧ exit.status = .exited 0

theorem accountsFor {exits : List RankExit} (shown : launcher.deadline? now = some last)
    (awaited : List.Forall₂ (fun rank exit => launcher.await rank (child rank) = .ok exit)
      (Rank.group launcher.size) exits) : launcher.AccountsFor now last child exits := by
  have length : exits.length = launcher.size.toNat := by
    rw [← awaited.length_eq, Rank.group, Rank.length_interval]
  have told {index : Nat} (below : index < exits.length) :
      launcher.await ⟨UInt32.ofNat index⟩ (child ⟨UInt32.ofNat index⟩) = .ok exits[index] := by
    obtain ⟨inside, same⟩ := List.getElem?_eq_some_iff.mp (Rank.getElem?_group (length ▸ below))
    have known := (List.forall₂_iff_get.mp awaited).2 index inside below
    rwa [List.get_eq_getElem, same] at known
  refine ⟨length, fun index below => ?_, ?_⟩
  · have below : index < exits.length := length ▸ below
    exact ⟨_, List.getElem?_eq_getElem below, rank_of_await (told below),
      tells_of_await shown (told below)⟩
  · rw [List.all_eq_true]
    refine forall₂_congr fun exit member => ?_
    obtain ⟨index, below, rfl⟩ := List.getElem_of_mem member
    exact succeeds_iff (told below)

theorem run_answers (ready : launcher.Ready now last child)
    (starts : ∀ rank ∈ Rank.group launcher.size,
      start (launcher.place port rank) = .ok (child rank)) :
    ∃ exits, launcher.run now (.ok port) program start = .ok exits ∧
      launcher.AccountsFor now last child exits := by
  have answers (rank : Rank) (member : rank ∈ Rank.group launcher.size) :
      ∃ exit, launcher.await rank (child rank) = .ok exit :=
    await_answers fun unbounded => ready.bounded unbounded rank member
  obtain ⟨exits, awaited⟩ := mapM_answers answers
  exact ⟨exits, (run_eq ready starts).trans (mapM_eq_ok awaited),
    accountsFor ready.shown awaited⟩

/-- Unless a process ends at the very deadline, the waiters come to an end with the same exits,
in whatever order they move. -/
theorem waiters_agree (ready : launcher.Ready now last child)
    (starts : ∀ rank ∈ Rank.group launcher.size,
      start (launcher.place port rank) = .ok (child rank))
    (untied : ∀ rank ∈ Rank.group launcher.size, ∀ deadline ∈ last, ∀ ended status,
      (child rank).ending = some (ended, status) → now.total + ended ≠ deadline.total)
    {exits : List RankExit} (answers : launcher.run now (.ok port) program start = .ok exits)
    {waiters : Waiters} (reaches : Waiters.Reaches launcher child .start waiters)
    (rests : ∀ next, ¬Waiters.Step launcher child waiters next) : waiters.collected = exits := by
  refine Waiters.collected_eq ready.bounded (fun rank member timeout bounded => ?_)
    (run_eq ready starts ▸ answers) reaches rests
  intro ended status ending tied
  obtain ⟨deadline, due, total⟩ := deadline_of_timeout ready.shown bounded
  exact untied rank member deadline due ended status ending (by omega)

end Launcher

theorem lookupVariable_append {first second : List (String × String)} {name value : String}
    (h : lookupVariable first name = some value) :
    lookupVariable (first ++ second) name = some value := by
  obtain ⟨entry, found, rfl⟩ := Option.map_eq_some_iff.mp h
  rw [lookupVariable, List.find?_append, found]
  rfl

namespace Placement

theorem ofLookup_inherited (c : Placement) (inherited : List (String × String)) :
    ofLookup (lookupVariable (c.environment ++ inherited)) =
      ofLookup (lookupVariable c.environment) := by
  obtain ⟨rank, size, address, timeout⟩ := lookup_environment c
  have added {name value : String} (h : lookupVariable c.environment name = some value) :
      lookupVariable (c.environment ++ inherited) name = some value := lookupVariable_append h
  simp only [ofLookup, rank, size, address, timeout, added rank, added size, added address,
    added timeout]

end Placement

namespace Launcher

variable {launcher : Launcher} {port : UInt16} {rank : Rank}

theorem placed_is_read (member : rank ∈ Rank.group launcher.size)
    (fits : launcher.connectTimeout.wholeMillis < UInt64.size)
    (inherited : List (String × String)) :
    Placement.ofLookup (lookupVariable ((launcher.place port rank).environment ++ inherited)) =
      .ok ⟨rank, launcher.size, .ofIp launcher.host port, launcher.connectTimeout.floorMillis⟩ := by
  rw [Placement.ofLookup_inherited, Placement.ofLookup_environment (size_pos member)
    (Rank.mem_group.mp member)]
  exact if_pos fits

end Launcher

namespace Command

variable {machine : Machine} {starter : Starter} {launcher : Launcher} {port : UInt16}
  {program : String} {start : Start}

def launchedJob (machine : Machine) (starter : Starter) (launcher : Launcher) (port : UInt16)
    (program : String) : Start → Except SpawnFailure Job :=
  starter (machine.host.joins (.ofIp launcher.host port)) program

def launchedChild (machine : Machine) (starter : Starter) (launcher : Launcher) (port : UInt16)
    (program : String) (start : Start) : Rank → Child :=
  childOf (runRanks launcher port start (launchedJob machine starter launcher port program))

theorem launch_exits (free : machine.freePort launcher.host = .ok port) :
    (launch machine starter launcher program start).exits =
      launcher.run machine.now (.ok port) program fun placement =>
        (launchedJob machine starter launcher port program (startOfRank start placement)).map
          fun _ => launchedChild machine starter launcher port program start placement.rank := by
  unfold launch
  rw [free]
  rfl

theorem launch_answers {last : Option Moment} (free : machine.freePort launcher.host = .ok port)
    (ready : launcher.Ready machine.now last
      (launchedChild machine starter launcher port program start))
    (starts : ∀ rank ∈ Rank.group launcher.size, ∃ job,
      launchedJob machine starter launcher port program
        (startOfRank start (launcher.place port rank)) = .ok job) :
    ∃ exits, (launch machine starter launcher program start).exits = .ok exits ∧
      launcher.AccountsFor machine.now last
        (launchedChild machine starter launcher port program start) exits := by
  rw [launch_exits free]
  refine Launcher.run_answers ready fun rank member => ?_
  obtain ⟨job, begins⟩ := starts rank member
  rw [begins]
  rfl

/-- What the command shows of its group. -/
structure Shows (launched : Launched) (exits : List RankExit) (course : Course) : Prop where
  printed : course.printed = launched.printed ++
    exits.map fun exit => (launched.ended, exit.describe ++ "\n")
  ending : course.ending = .exited 0 ∨ course.ending = .exited 1
  success : course.ending = .exited 0 ↔
    ∀ exit ∈ exits, exit.timedOut = false ∧ exit.status = .exited 0

theorem launchCourse_shows {now : Moment} {last : Option Moment} {child : Rank → Child}
    {launched : Launched} {exits : List RankExit}
    (accounts : launcher.AccountsFor now last child exits) (done : launched.exits = .ok exits)
    (spared : deadlySignal? start launched.sent = none) :
    Shows launched exits (launchCourse start launched) := by
  have course : launchCourse start launched =
      ⟨launched.printed ++ exits.map fun exit => (launched.ended, exit.describe ++ "\n"), [],
        launched.sent.filter fun signal => signal.process ≠ start.process, launched.ended,
        .exited (if exits.all RankExit.success then 0 else 1)⟩ := by
    unfold launchCourse
    rw [done, spared]
  rw [course]
  refine ⟨rfl, ?_, ?_⟩
  · split
    · exact .inl rfl
    · exact .inr rfl
  · rw [← accounts.success]
    split
    · rename_i all
      exact iff_of_true rfl all
    · rename_i some
      have unlike : JobEnd.exited 1 ≠ .exited 0 := by decide
      exact iff_of_false unlike some

/-- A launch that has a port, whose deadline the clock can show and whose processes all start
reports every rank: by its own ending if that comes before the deadline, as killed if it comes
after, and the waiters come to that in whatever order they move. The pipe of a captured output is
taken to end with its process. -/
theorem every_rank_is_accounted_for :
    (∀ (launcher : Launcher) (now : Moment) (last : Option Moment) (port : UInt16)
        (program : String) (start : Placement → Except SpawnFailure Child) (child : Rank → Child),
      launcher.Ready now last child →
      (∀ rank ∈ Rank.group launcher.size, start (launcher.place port rank) = .ok (child rank)) →
      ∃ exits, launcher.run now (.ok port) program start = .ok exits ∧
        launcher.AccountsFor now last child exits ∧
        (WellFounded fun later earlier => Waiters.Step launcher child earlier later) ∧
        (∀ waiters, Waiters.Reaches launcher child .start waiters →
          (∀ next, ¬Waiters.Step launcher child waiters next) →
          List.Forall₂ (fun rank => launcher.Reports rank (child rank))
            (Rank.group launcher.size) waiters.collected ∧
          ((∀ rank ∈ Rank.group launcher.size, ∀ deadline ∈ last, ∀ ended status,
              (child rank).ending = some (ended, status) →
              now.total + ended ≠ deadline.total) → waiters.collected = exits)) ∧
        ∀ beginning launched, launched.exits = .ok exits →
          deadlySignal? beginning launched.sent = none →
          Shows launched exits (launchCourse beginning launched)) ∧
    (∀ (launcher : Launcher) (port : UInt16), ∀ rank ∈ Rank.group launcher.size,
      launcher.placement port rank = .ok (launcher.place port rank) ∧
      (launcher.connectTimeout.wholeMillis < UInt64.size → ∀ start : Start,
        Placement.ofLookup (lookupVariable
          (startOfRank start (launcher.place port rank)).environment) =
        .ok ⟨rank, launcher.size, .ofIp launcher.host port,
          launcher.connectTimeout.floorMillis⟩)) ∧
    ∀ (machine : Machine) (starter : Starter) (start : Start) (values : Values) (program : String)
        (arguments : List String) (last : Option Moment) (port : UInt16),
      launchGrammar.read start.arguments = .values values →
      values.positionals = program :: arguments →
      machine.freePort (launcherOf values).host = .ok port →
      let launched := launch machine starter (launcherOf values) program { start with arguments }
      let child := launchedChild machine starter (launcherOf values) port program
        { start with arguments }
      (launcherOf values).Ready machine.now last child →
      (∀ rank ∈ Rank.group (launcherOf values).size, ∃ job,
        launchedJob machine starter (launcherOf values) port program (startOfRank
          { start with arguments } ((launcherOf values).place port rank)) = .ok job) →
      deadlySignal? start launched.sent = none →
      ∃ exits, (launcherOf values).AccountsFor machine.now last child exits ∧
        Shows launched exits (launchCommand machine starter start) := by
  refine ⟨?_, ?_, ?_⟩
  · intro launcher now last port program start child ready starts
    obtain ⟨exits, answers, accounts⟩ :=
      @Launcher.run_answers launcher now last port program start child ready starts
    refine ⟨exits, answers, accounts, Waiters.wellFounded_step ready.bounded, ?_, ?_⟩
    · intro waiters reaches rests
      exact ⟨Waiters.collected_at_rest ready.bounded reaches rests, fun untied =>
        Launcher.waiters_agree ready starts untied answers reaches rests⟩
    · intro beginning launched done spared
      exact launchCourse_shows accounts done spared
  · intro launcher port rank member
    exact ⟨Launcher.placement_eq member, fun fits start =>
      Launcher.placed_is_read member fits start.environment⟩
  · intro machine starter start values program arguments last port read positionals free
      launched child ready starts spared
    obtain ⟨exits, answers, accounts⟩ := launch_answers free ready starts
    have command : launchCommand machine starter start = launchCourse start launched := by
      unfold launchCommand
      rw [read]
      dsimp only
      rw [positionals]
    rw [command]
    exact ⟨exits, accounts, launchCourse_shows accounts answers spared⟩

def oneSecond : Launcher := { Launcher.ofSize 3 with timeout := some (.ofSeconds 1) }

/-- The first process ends in time, the last dies in time, and the other one runs for ever. -/
def mixed (rank : Rank) : Child :=
  match rank.index.toNat with
  | 0 => ⟨[], some (500_000_000, .exited 0)⟩
  | 1 => ⟨[], none⟩
  | _ => ⟨[], some (999_999_999, .killed .fpe)⟩

def idle : Starter := fun _ _ _ => .ok (.exit 0)

def forAMinute : Start := ⟨["--timeout-secs", "60", "true"], [], "", [], firstProcess⟩

def aMinute : Values := ⟨[("timeout-secs", "60")], ["true"]⟩

theorem ofGroup_sends_nothing {size : UInt32} {ignored : List Signal} {job : Rank → Job}
    (quiet : ∀ rank, (job rank).sent = []) : (JobRun.ofGroup size ignored job).sent = [] := by
  simp [JobRun.ofGroup, JobRun.ofRun, quiet]

theorem idle_sends_nothing (machine : Machine) (launcher : Launcher) (program : String)
    (start : Start) : (launch machine idle launcher program start).sent = [] := by
  have nothing (port : UInt16) (joined : Bool) :
      (runRanks launcher port start (idle joined program)).sent = [] :=
    ofGroup_sends_nothing fun rank => by cases launcher.placement port rank <;> rfl
  unfold launch
  dsimp only
  rw [nothing, List.filter_nil]

theorem deadlySignal_nil (start : Start) : deadlySignal? start [] = none := by
  simp [deadlySignal?]

theorem every_rank_is_accounted_for_three :
    oneSecond.Ready (.ofSeconds 86400) (some (.ofSeconds 86401)) mixed ∧
    (∃ exits, oneSecond.run (.ofSeconds 86400) (.ok 49152) "sh"
        (fun placement => .ok (mixed placement.rank)) = .ok exits ∧
      exits = [⟨⟨0⟩, .exited 0, none, false⟩, ⟨⟨1⟩, .killed .kill, none, true⟩,
        ⟨⟨2⟩, .killed .fpe, none, false⟩] ∧
      (∀ waiters, Waiters.Reaches oneSecond mixed .start waiters →
        (∀ next, ¬Waiters.Step oneSecond mixed waiters next) → waiters.collected = exits) ∧
      Shows ⟨.ok exits, [], [], 0⟩ exits (launchCourse forAMinute ⟨.ok exits, [], [], 0⟩)) ∧
    Placement.ofLookup (lookupVariable
        (startOfRank forAMinute (oneSecond.place 49152 ⟨2⟩)).environment) =
      .ok ⟨⟨2⟩, 3, .ofIp (.v4 .loopback) 49152, Placement.defaultTimeout.floorMillis⟩ ∧
    ∃ exits, Shows (launch upForADay idle (launcherOf aMinute) "true"
        { forAMinute with arguments := [] }) exits
      (launchCommand upForADay idle forAMinute) := by
  have ready : oneSecond.Ready (.ofSeconds 86400) (some (.ofSeconds 86401)) mixed :=
    ⟨by decide, by decide, fun endless => by cases endless⟩
  have untied : ∀ rank ∈ Rank.group oneSecond.size, ∀ deadline ∈ some (Moment.ofSeconds 86401),
      ∀ ended status, (mixed rank).ending = some (ended, status) →
      (Moment.ofSeconds 86400).total + ended ≠ deadline.total := by
    rintro rank - _ ⟨⟩ ended status ending tied
    have total :
        (Moment.ofSeconds 86401).total = (Moment.ofSeconds 86400).total + 1_000_000_000 := by
      decide
    have early : ended < 1_000_000_000 := by
      unfold mixed at ending
      split at ending <;> cases ending <;> decide
    omega
  obtain ⟨exits, answers, -, -, agree, shows⟩ := every_rank_is_accounted_for.1 oneSecond
    (.ofSeconds 86400) (some (.ofSeconds 86401)) 49152 "sh"
    (fun placement => .ok (mixed placement.rank)) mixed ready fun _ _ => rfl
  have found : exits = [⟨⟨0⟩, .exited 0, none, false⟩, ⟨⟨1⟩, .killed .kill, none, true⟩,
      ⟨⟨2⟩, .killed .fpe, none, false⟩] :=
    Except.ok.inj (answers.symm.trans rfl)
  have placed := every_rank_is_accounted_for.2.1 oneSecond 49152 ⟨2⟩ (by decide)
  have minute : (launcherOf aMinute).timeout = some (.ofSeconds 60) := timeout_read 60
  have command := every_rank_is_accounted_for.2.2 upForADay idle forAMinute aMinute "true" []
    (some (.ofSeconds 100060)) 49152 (reads_timeout 60) rfl rfl
    ⟨by decide, by rw [Launcher.deadline?, minute]; rfl, fun endless => by cases endless⟩
    (fun rank _ => ⟨_, rfl⟩) (by rw [idle_sends_nothing, deadlySignal_nil])
  obtain ⟨shown, -, shows'⟩ := command
  exact ⟨ready, ⟨exits, answers, found,
    fun waiters reaches rests => (agree waiters reaches rests).2 untied,
    shows _ _ rfl (deadlySignal_nil _)⟩, placed.2 (by decide) forAMinute, shown, shows'⟩

def nowhere : Launcher :=
  { Launcher.ofSize 2 with host := .v6 ⟨[0x2001, 0xdb8, 0, 0, 0, 0, 0, 1], rfl⟩ }

/-- Nothing is reported of a group whose coordinator could not listen, though every process would
start and end. -/
theorem group_without_a_port_is_refused :
    nowhere.Ready upForADay.now none (fun _ => ⟨[], some (0, .exited 0)⟩) ∧
    upForADay.freePort nowhere.host = .error .addressUnavailable ∧
    nowhere.run upForADay.now (upForADay.freePort nowhere.host) "true"
        (fun _ => .ok ⟨[], some (0, .exited 0)⟩) =
      .error (.refused (.transfer (.system .addressUnavailable))) ∧
    ¬∃ exits, nowhere.run upForADay.now (upForADay.freePort nowhere.host) "true"
        (fun _ => .ok ⟨[], some (0, .exited 0)⟩) = .ok exits := by
  have refused : nowhere.run upForADay.now (upForADay.freePort nowhere.host) "true"
      (fun _ => .ok ⟨[], some (0, .exited 0)⟩) =
      .error (.refused (.transfer (.system .addressUnavailable))) := rfl
  exact ⟨⟨by decide, rfl, fun _ _ _ => nofun⟩, rfl, refused, by rw [refused]; exact nofun⟩

end Command
end FaultDrill
