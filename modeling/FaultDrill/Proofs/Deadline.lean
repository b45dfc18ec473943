import Mathlib.Algebra.Group.Int.Defs
import FaultDrill.Command.Grouprun
import FaultDrill.Proofs.Placement
set_option autoImplicit false

namespace FaultDrill

namespace Duration

theorem totalNanos_ofSeconds (seconds : UInt64) :
    (ofSeconds seconds).totalNanos = seconds.toNat * 1_000_000_000 := Nat.add_zero _

theorem totalNanos_ofMillis (millis : UInt64) :
    (ofMillis millis).totalNanos = millis.toNat * 1_000_000 := by
  have seconds : (UInt64.ofNat (millis.toNat / 1000)).toNat = millis.toNat / 1000 :=
    UInt64.toNat_ofNat_of_lt (Nat.lt_of_le_of_lt (Nat.div_le_self ..) millis.toNat_lt)
  simp only [totalNanos, ofMillis, seconds]
  omega

end Duration

namespace Moment

def total (m : Moment) : Int := m.seconds.toInt * 1_000_000_000 + m.nanos

/-- One past what the clock can show. -/
def limit : Int := 2 ^ 63 * 1_000_000_000

theorem total_injective {a b : Moment} (h : a.total = b.total) : a = b := by
  obtain ⟨seconds, nanos, below⟩ := a
  obtain ⟨seconds', nanos', below'⟩ := b
  simp only [total] at h
  obtain rfl : seconds = seconds' := Int64.toInt_inj.mp (by omega)
  obtain rfl : nanos = nanos' := by omega
  rfl

theorem total_lt_limit (m : Moment) : m.total < limit := by
  have := m.seconds.toInt_lt
  have := m.nanos_lt
  simp only [total, limit]
  omega

theorem add_of_lt {m : Moment} {d : Duration} (h : m.total + d.totalNanos < limit) :
    ∃ later, m.add? d = some later ∧ later.total = m.total + d.totalNanos := by
  have low := m.seconds.le_toInt
  have most : Int64.maxValue.toInt = 9223372036854775807 := rfl
  simp only [total, Duration.totalNanos, limit] at h ⊢
  have fits : m.seconds.toInt + d.seconds.toNat + ((m.nanos + d.nanos) / 1_000_000_000 : Nat) ≤
      Int64.maxValue.toInt := by
    omega
  refine ⟨_, if_pos fits, ?_⟩
  rw [Int64.toInt_ofInt_of_le (by omega) (by omega)]
  dsimp only
  omega

theorem add_eq_some_iff {m later : Moment} {d : Duration} :
    m.add? d = some later ↔ later.total = m.total + d.totalNanos := by
  constructor
  · intro h
    have most : Int64.maxValue.toInt = 9223372036854775807 := rfl
    have fits : m.total + d.totalNanos < limit := by
      unfold add? at h
      dsimp only at h
      split at h
      · simp only [total, Duration.totalNanos, limit]
        omega
      · cases h
    obtain ⟨exact, added, total⟩ := add_of_lt fits
    rw [added] at h
    cases h
    exact total
  · intro h
    obtain ⟨exact, added, total⟩ := add_of_lt (h ▸ later.total_lt_limit)
    rw [added, total_injective (total.trans h.symm)]

theorem add_isSome_iff {m : Moment} {d : Duration} :
    (m.add? d).isSome = true ↔ m.total + d.totalNanos < limit := by
  constructor
  · intro h
    obtain ⟨later, added⟩ := Option.isSome_iff_exists.mp h
    rw [← add_eq_some_iff.mp added]
    exact later.total_lt_limit
  · intro h
    obtain ⟨later, added, -⟩ := add_of_lt h
    rw [added]
    rfl

end Moment

namespace Bootstrap

/-- How often the time is not yet over when it is looked at again and again, from a moment on. -/
def looks (deadline now : Int) : Nat :=
  if now < deadline then looks deadline (now + retryInterval) + 1 else 0
termination_by (deadline - now).toNat
decreasing_by simp only [retryInterval, timerTick]; omega

theorem looks_eq (deadline now : Int) : looks deadline now =
    ((deadline - now).toNat + retryInterval - 1) / retryInterval := by
  fun_induction looks deadline now with
  | case1 now early ih =>
    rw [ih]
    simp only [retryInterval, timerTick]
    omega
  | case2 now late =>
    simp only [retryInterval, timerTick]
    omega

/-- A member's side by the clock: the deadline is computed first, and the time is looked at after
each attempt that failed. There is no answer when the clock cannot show the deadline. -/
def joinAt? (now : Moment) (address : String) (rank : Rank) (size : UInt32) (timeout : Duration)
    (refusal : Option Refusal) :
    Option (Except GroupError (Communicator × Frame) × List LogEntry) :=
  if rank.isCoordinator || rank.index ≥ size then some (.error (.invalidRank rank size), [])
  else (joinDeadline? now timeout).map fun deadline =>
    match refusal with
    | none =>
      (.ok (.member rank size, .join rank),
        [note .debug rank s!"🔗 Joined coordinator at {address}"])
    | some refusal =>
      (.error (.connect address s!"Failed to connect to coordinator: {refusal.message}"),
        List.replicate (looks deadline.total now.total)
          (note .debug rank s!"Coordinator not reachable yet: {refusal.message}"))

theorem joinAt_eq {now deadline : Moment} {timeout : Duration}
    (shown : joinDeadline? now timeout = some deadline) (address : String) (rank : Rank)
    (size : UInt32) (refusal : Option Refusal) :
    joinAt? now address rank size timeout refusal =
      some (join address rank size timeout refusal) := by
  have total := Moment.add_eq_some_iff.mp shown
  have often : looks deadline.total now.total = retries timeout := by
    have span : (deadline.total - now.total).toNat = timeout.totalNanos := by omega
    rw [looks_eq, span, retries]
  unfold joinAt? join
  split
  · rfl
  · rw [shown, ← often]
    rfl

theorem joinDeadline_of_millis {now : Moment} (early : now.seconds.toInt < 2 ^ 62)
    (millis : UInt64) : ∃ deadline, joinDeadline? now (.ofMillis millis) = some deadline := by
  have few := millis.toNat_lt
  have below := now.nanos_lt
  have fits : now.total + (Duration.ofMillis millis).totalNanos < Moment.limit := by
    rw [Duration.totalNanos_ofMillis, Moment.total, Moment.limit]
    omega
  obtain ⟨deadline, shown, -⟩ := Moment.add_of_lt fits
  exact ⟨deadline, shown⟩

end Bootstrap

theorem mapM_error {ε α β : Type} {f : α → Except ε β} {items : List α} {error : ε}
    (h : items.mapM f = .error error) : ∃ item ∈ items, f item = .error error := by
  induction items with
  | nil => cases h
  | cons item items ih =>
    rw [List.mapM_cons] at h
    cases first : f item with
    | error other =>
      rw [first] at h
      cases h
      exact ⟨item, List.mem_cons_self, first⟩
    | ok value =>
      cases rest : items.mapM f with
      | error other =>
        rw [first, rest] at h
        cases h
        obtain ⟨item, mem, fails⟩ := ih rest
        exact ⟨item, List.mem_cons_of_mem _ mem, fails⟩
      | ok values =>
        rw [first, rest] at h
        cases h

namespace Launcher

variable {launcher : Launcher} {now : Moment} {port : UInt16} {program : String}
  {start : Placement → Except SpawnFailure Child}

theorem run_inhabited (inhabited : launcher.size ≠ 0) :
    launcher.run now (.ok port) program start =
      (launcher.deadline? now).elim (.error .clockOverflow) fun _ =>
        ((Rank.group launcher.size).mapM (launcher.spawn port program start)).bind fun children =>
          ((Rank.group launcher.size).zip children).mapM fun started =>
            launcher.await started.1 started.2 := by
  unfold run
  rw [if_neg inhabited]
  cases launcher.deadline? now <;> rfl

theorem spawn_placed {rank : Rank} {placement : Placement}
    (placed : launcher.placement port rank = .ok placement) :
    launcher.spawn port program start rank =
      match start placement with
      | .ok child => .ok child
      | .error failure =>
        .error (.refused (.launch rank s!"Failed to spawn {program}: {failure.message}")) := by
  unfold spawn
  rw [placed]
  rfl

theorem spawn_ne_overflow {rank : Rank} :
    launcher.spawn port program start rank ≠ .error .clockOverflow := by
  cases placed : launcher.placement port rank with
  | error error =>
    unfold spawn
    rw [placed]
    exact fun h => nomatch h
  | ok placement =>
    rw [spawn_placed placed]
    cases start placement <;> exact fun h => nomatch h

theorem await_ne_overflow {rank : Rank} {child : Child} :
    launcher.await rank child ≠ .error .clockOverflow := by
  unfold await
  dsimp only
  repeat' split
  all_goals simp

theorem run_overflows_iff (inhabited : launcher.size ≠ 0) :
    launcher.run now (.ok port) program start = .error .clockOverflow ↔
      launcher.deadline? now = none := by
  rw [run_inhabited inhabited]
  cases shown : launcher.deadline? now with
  | none => simp
  | some deadline =>
    simp only [Option.elim_some, reduceCtorEq, iff_false]
    intro h
    cases spawned : (Rank.group launcher.size).mapM (launcher.spawn port program start) with
    | error error =>
      rw [spawned] at h
      cases h
      obtain ⟨rank, -, fails⟩ := mapM_error spawned
      exact spawn_ne_overflow fails
    | ok children =>
      rw [spawned] at h
      obtain ⟨started, -, fails⟩ := mapM_error h
      exact await_ne_overflow fails

theorem deadline_eq_none_iff :
    launcher.deadline? now = none ↔ ∃ timeout, launcher.timeout = some timeout ∧
      Moment.limit ≤ now.total + timeout.totalNanos := by
  unfold deadline?
  cases launcher.timeout with
  | none => simp
  | some timeout =>
    have shown := not_congr (Moment.add_isSome_iff (m := now) (d := timeout))
    simpa using shown

end Launcher

namespace Command

theorem timeout_launcherOf {values : Values} {timeout : Duration}
    (bounded : (launcherOf values).timeout = some timeout) :
    ∃ seconds, timeout = .ofSeconds seconds := by
  obtain ⟨seconds, -, rfl⟩ := Option.map_eq_some_iff.mp bounded
  exact ⟨seconds, rfl⟩

theorem readWord64_toString (seconds : UInt64) :
    Placement.readWord64? (toString seconds).toList = some seconds := by
  have text : (toString seconds).toList = Nat.toDigits 10 seconds.toNat := Nat.toList_repr
  have small : seconds.toNat < UInt64.size := seconds.toNat_lt
  simp [Placement.readWord64?, text, Text.readUnsigned_toDigits, small]

theorem shape_number (grammar : Grammar) (place : Nat) (seconds : UInt64) :
    grammar.shape place (toString seconds) = .plain := by
  have text : (toString seconds).toList = Nat.toDigits 10 seconds.toNat := Nat.toList_repr
  obtain ⟨first, rest, digits⟩ := List.exists_cons_of_ne_nil
    (Nat.toDigits_ne_nil (n := seconds.toNat) (b := 10))
  have unsigned : first ≠ '-' := by
    rintro rfl
    have digit := @Text.isSome_toDigits 10 (by decide) (by decide) seconds.toNat '-'
      (digits ▸ List.mem_cons_self)
    revert digit
    decide
  unfold Grammar.shape
  rw [text, digits]
  split <;> simp_all

theorem reads_timeout (seconds : UInt64) :
    launchGrammar.read ["--timeout-secs", toString seconds, "true"] =
      .values ⟨[("timeout-secs", toString seconds)], ["true"]⟩ := by
  have option : launchGrammar.shape 0 "--timeout-secs" =
      .option ⟨"timeout-secs", none, readsWord64⟩ none := by rfl
  have accepts : readsWord64 (toString seconds) = true := by
    rw [readsWord64, readWord64_toString]
    rfl
  have program : launchGrammar.shape 0 "true" = .plain := by rfl
  have value := shape_number launchGrammar 0 seconds
  have trailing : launchGrammar.isTrailing = true := rfl
  have added (values : Values) : launchGrammar.addPositionals values ["true"] =
      .values { values with positionals := values.positionals ++ ["true"] } := rfl
  simp [Grammar.read, Grammar.readFrom, option, value, program, Grammar.addOption, accepts,
    Values.option?, trailing, added]

theorem timeout_read (seconds : UInt64) :
    (launcherOf ⟨[("timeout-secs", toString seconds)], ["true"]⟩).timeout =
      some (.ofSeconds seconds) := by
  simp [launcherOf, Values.option?, readWord64_toString]

/-- A member that joins has a deadline whatever its variables say. The launcher takes every number
of seconds as a timeout, and breaks off just when the clock ends before the timeout does. -/
theorem join_fits_launch_overflows_iff (now : Moment) (early : now.seconds.toInt < 2 ^ 62) :
    (∀ seconds : UInt64, ∃ arguments values, launchGrammar.read arguments = .values values ∧
      (launcherOf values).timeout = some (.ofSeconds seconds)) ∧
    (∀ lookup placement, Placement.ofLookup lookup = .ok placement →
      (∃ deadline, Bootstrap.joinDeadline? now placement.connectTimeout = some deadline ∧
        deadline.total = now.total + placement.connectTimeout.totalNanos) ∧
      ∀ address rank size refusal,
        Bootstrap.joinAt? now address rank size placement.connectTimeout refusal =
          some (Bootstrap.join address rank size placement.connectTimeout refusal)) ∧
    ∀ values port program start, (launcherOf values).size ≠ 0 →
      ((launcherOf values).run now (.ok port) program start = .error .clockOverflow ↔
        ∃ seconds : UInt64, (launcherOf values).timeout = some (.ofSeconds seconds) ∧
          2 ^ 63 ≤ now.seconds.toInt + seconds.toNat) := by
  refine ⟨fun seconds => ⟨_, _, reads_timeout seconds, timeout_read seconds⟩, ?_, ?_⟩
  · intro lookup placement read
    obtain ⟨-, -, millis, timeout⟩ := Placement.ofLookup_ok read
    obtain ⟨deadline, shown⟩ := Bootstrap.joinDeadline_of_millis early millis
    rw [timeout]
    exact ⟨⟨deadline, shown, Moment.add_eq_some_iff.mp shown⟩, fun address rank size refusal =>
      Bootstrap.joinAt_eq shown address rank size refusal⟩
  · intro values port program start inhabited
    have below := now.nanos_lt
    rw [Launcher.run_overflows_iff inhabited, Launcher.deadline_eq_none_iff]
    constructor
    · rintro ⟨timeout, bounded, past⟩
      obtain ⟨seconds, rfl⟩ := timeout_launcherOf bounded
      rw [Duration.totalNanos_ofSeconds, Moment.total, Moment.limit] at past
      exact ⟨seconds, bounded, by omega⟩
    · rintro ⟨seconds, bounded, past⟩
      refine ⟨_, bounded, ?_⟩
      rw [Duration.totalNanos_ofSeconds, Moment.total, Moment.limit]
      omega

theorem launchCourse_overflows {start : Start} {launched : Launched}
    (h : launched.exits = .error .clockOverflow) :
    launchCourse start launched = .instant "" abortCode := by
  unfold launchCourse
  rw [h]

def longest : Values := ⟨[("timeout-secs", "18446744073709551615")], ["true"]⟩

theorem timeout_longest : (launcherOf longest).timeout = some (.ofSeconds 18446744073709551615) :=
  timeout_read 18446744073709551615

theorem join_fits_launch_overflows_iff_afterADay :
    (Moment.ofSeconds 86400).seconds.toInt < 2 ^ 62 ∧
    Placement.ofLookup (fun _ => none) = .ok Placement.solo ∧
    (∃ deadline, Bootstrap.joinDeadline? (.ofSeconds 86400) Placement.defaultTimeout =
      some deadline ∧ deadline.total =
        (Moment.ofSeconds 86400).total + Placement.defaultTimeout.totalNanos) ∧
    (launcherOf longest).size ≠ 0 ∧
    ∀ start, (launcherOf longest).run (.ofSeconds 86400) (.ok 49152) "true" start =
        .error .clockOverflow ↔
      ∃ seconds : UInt64, (launcherOf longest).timeout = some (.ofSeconds seconds) ∧
        2 ^ 63 ≤ (Moment.ofSeconds 86400).seconds.toInt + seconds.toNat := by
  have early : (Moment.ofSeconds 86400).seconds.toInt < 2 ^ 62 := by decide
  have alone : Placement.ofLookup (fun _ => none) = .ok Placement.solo := rfl
  have inhabited : (launcherOf longest).size ≠ 0 := by decide
  obtain ⟨-, joins, launches⟩ := join_fits_launch_overflows_iff (.ofSeconds 86400) early
  exact ⟨early, alone, (joins _ _ alone).1, inhabited, fun start =>
    launches longest 49152 "true" start inhabited⟩

def upForADay : Machine := .ofHost .isolated (fun _ => "hello") none 0

/-- The longest timeout of the command line ends after the clock, and the command breaks off,
whatever it would start. -/
theorem longest_timeout_overflows :
    upForADay.now.seconds.toInt < 2 ^ 62 ∧
    launchGrammar.read ["--timeout-secs", "18446744073709551615", "true"] = .values longest ∧
    (launcherOf longest).deadline? upForADay.now = none ∧
    ∀ starter : Starter, launchCommand upForADay starter
        { arguments := ["--timeout-secs", "18446744073709551615", "true"], environment := [] } =
      .instant "" abortCode := by
  have read : launchGrammar.read ["--timeout-secs", "18446744073709551615", "true"] =
      .values longest := reads_timeout 18446744073709551615
  have overflows : (launcherOf longest).deadline? upForADay.now = none :=
    Launcher.deadline_eq_none_iff.mpr ⟨_, timeout_longest, by decide⟩
  refine ⟨by decide, read, overflows, fun starter => ?_⟩
  have breaks (start : Placement → Except SpawnFailure Child) :
      (launcherOf longest).run upForADay.now (.ok 49152) "true" start = .error .clockOverflow :=
    (Launcher.run_overflows_iff (by decide)).mpr overflows
  have free : upForADay.freePort (launcherOf longest).host = .ok 49152 := rfl
  unfold launchCommand
  rw [read]
  apply launchCourse_overflows
  unfold launch
  dsimp only
  rw [free]
  exact breaks _

end Command
end FaultDrill
