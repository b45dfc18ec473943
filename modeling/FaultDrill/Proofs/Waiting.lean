import Mathlib.Algebra.GroupWithZero.Nat
import Mathlib.Algebra.Order.BigOperators.Group.List
import Mathlib.Algebra.Order.Group.Nat
import Mathlib.Logic.Function.Basic
import Mathlib.Logic.Relation
import FaultDrill.Launcher
import FaultDrill.Proofs.Rank
set_option autoImplicit false

/-!
# Waiting for a group

Every rank has a waiter, all waiters know the same deadline, and the launcher collects what they
report in rank order. The waiters move in any order, and one whose process has ended may notice
it late. A waiter is in time at the deadline only: there it kills a process that still runs. In
whatever order the waiters move, they come to an end, and then the launcher has collected how
every rank ended.
-/
namespace FaultDrill

namespace Child

def EndsBy (child : Child) (moment : Nat) : Prop :=
  ∃ ended status, child.ending = some (ended, status) ∧ ended ≤ moment

def RunsUntil (child : Child) (moment : Nat) : Prop :=
  ∀ ended status, child.ending = some (ended, status) → moment ≤ ended

theorem runsUntil_of_not_endsBy {child : Child} {moment : Nat} (h : ¬child.EndsBy moment) :
    child.RunsUntil (moment + 1) :=
  fun ended status ends => Nat.lt_of_not_le fun le => h ⟨ended, status, ends, le⟩

end Child

theorem mapM_eq_ok {ε α β : Type} {f : α → Except ε β} {items : List α} {values : List β}
    (h : List.Forall₂ (fun item value => f item = .ok value) items values) :
    items.mapM f = .ok values := by
  induction h with
  | nil => rfl
  | cons first rest ih =>
    rw [List.mapM_cons, first, ih]
    rfl

theorem mapM_answers {ε α β : Type} {f : α → Except ε β} {items : List α}
    (h : ∀ item ∈ items, ∃ value, f item = .ok value) :
    ∃ values, List.Forall₂ (fun item value => f item = .ok value) items values := by
  induction items with
  | nil => exact ⟨[], .nil⟩
  | cons item items ih =>
    obtain ⟨value, first⟩ := h item List.mem_cons_self
    obtain ⟨values, rest⟩ := ih fun item member => h item (List.mem_cons_of_mem _ member)
    exact ⟨value :: values, .cons first rest⟩

namespace Launcher

def natural (launcher : Launcher) (rank : Rank) (child : Child) (status : WaitStatus) : RankExit :=
  ⟨rank, status, if launcher.capture then some (captured child.output) else none, false⟩

def killed (launcher : Launcher) (rank : Rank) (child : Child) : RankExit :=
  ⟨rank, .killed .kill, if launcher.capture then some (captured child.output) else none, true⟩

/-- How a rank may be reported. A process that ends at the very deadline may have been killed. -/
inductive Reports (launcher : Launcher) (rank : Rank) (child : Child) : RankExit → Prop
  | natural {ended : Nat} {status : WaitStatus} (ends : child.ending = some (ended, status))
      (early : ∀ timeout ∈ launcher.timeout, ended ≤ timeout.totalNanos) :
      Reports launcher rank child (launcher.natural rank child status)
  | killed {timeout : Duration} (bounded : launcher.timeout = some timeout)
      (late : child.RunsUntil timeout.totalNanos) :
      Reports launcher rank child (launcher.killed rank child)

variable {launcher : Launcher} {rank : Rank} {child : Child} {exit : RankExit}

theorem await_natural {ended : Nat} {status : WaitStatus}
    (ends : child.ending = some (ended, status))
    (early : ∀ timeout ∈ launcher.timeout, ended < timeout.totalNanos) :
    launcher.await rank child = .ok (launcher.natural rank child status) := by
  unfold await
  rw [ends]
  cases bounded : launcher.timeout with
  | none => rfl
  | some timeout => exact if_pos (early timeout bounded)

theorem await_killed {timeout : Duration} (bounded : launcher.timeout = some timeout)
    (late : child.RunsUntil timeout.totalNanos) :
    launcher.await rank child = .ok (launcher.killed rank child) := by
  unfold await
  rw [bounded]
  cases ends : child.ending with
  | none => rfl
  | some ending => exact if_neg (Nat.not_lt.mpr (late ending.1 ending.2 ends))

/-- What is expected of a rank is the only way to report it, except at the very deadline. -/
theorem await_of_reports (reports : launcher.Reports rank child exit)
    (untied : ∀ timeout ∈ launcher.timeout, ∀ ended status,
      child.ending = some (ended, status) → ended ≠ timeout.totalNanos) :
    launcher.await rank child = .ok exit := by
  cases reports with
  | natural ends early =>
    exact await_natural ends fun timeout bounded =>
      Nat.lt_of_le_of_ne (early timeout bounded) (untied timeout bounded _ _ ends)
  | killed bounded late => exact await_killed bounded late

theorem reports_of_await (h : launcher.await rank child = .ok exit) :
    launcher.Reports rank child exit := by
  cases bounded : launcher.timeout with
  | none =>
    cases ends : child.ending with
    | none =>
      unfold await at h
      rw [ends, bounded] at h
      cases h
    | some ending =>
      rw [await_natural ends (by simp [bounded])] at h
      cases h
      exact .natural ends (by simp [bounded])
  | some timeout =>
    by_cases late : child.RunsUntil timeout.totalNanos
    · rw [await_killed bounded late] at h
      cases h
      exact .killed bounded late
    · unfold Child.RunsUntil at late
      push Not at late
      obtain ⟨ended, status, ends, early⟩ := late
      rw [await_natural ends (by simpa [bounded] using early)] at h
      cases h
      exact .natural ends (by simpa [bounded] using early.le)

theorem await_answers (bounded : launcher.timeout = none → child.ending ≠ none) :
    ∃ exit, launcher.await rank child = .ok exit := by
  unfold await
  dsimp only
  split
  · exact ⟨_, rfl⟩
  · split <;> exact ⟨_, rfl⟩
  · exact ⟨_, rfl⟩
  · rename_i endless unbounded
    exact absurd endless (bounded unbounded)

end Launcher

inductive Watch where
  | waiting
  | killing
  | done (exit : RankExit)

def Watch.left : Watch → Nat
  | .waiting => 2
  | .killing => 1
  | .done _ => 0

/-- The waiters of a group, and what the launcher has collected from them. -/
structure Waiters where
  clock : Nat
  watch : Rank → Watch
  collected : List RankExit

namespace Waiters

def start : Waiters := ⟨0, fun _ => .waiting, []⟩

def put (waiters : Waiters) (rank : Rank) (watch : Watch) : Waiters :=
  { waiters with watch := Function.update waiters.watch rank watch }

@[simp] theorem put_clock (waiters : Waiters) (rank : Rank) (watch : Watch) :
    (waiters.put rank watch).clock = waiters.clock := rfl

@[simp] theorem put_collected (waiters : Waiters) (rank : Rank) (watch : Watch) :
    (waiters.put rank watch).collected = waiters.collected := rfl

@[simp] theorem put_watch_self (waiters : Waiters) (rank : Rank) (watch : Watch) :
    (waiters.put rank watch).watch rank = watch := Function.update_self ..

theorem put_watch_of_ne (waiters : Waiters) {rank other : Rank} (watch : Watch)
    (ne : other ≠ rank) : (waiters.put rank watch).watch other = waiters.watch other :=
  Function.update_of_ne ne ..

variable {launcher : Launcher} {child : Rank → Child} {waiters next : Waiters}

/-- One move. A waiter asks first whether its process has ended, and then looks at the clock. -/
inductive Step (launcher : Launcher) (child : Rank → Child) (waiters : Waiters) : Waiters → Prop
  | ends {rank : Rank} {ended : Nat} {status : WaitStatus}
      (member : rank ∈ Rank.group launcher.size) (waits : waiters.watch rank = .waiting)
      (ends : (child rank).ending = some (ended, status)) (early : ended ≤ waiters.clock) :
      Step launcher child waiters
        (waiters.put rank (.done (launcher.natural rank (child rank) status)))
  | expires {rank : Rank} {timeout : Duration} (member : rank ∈ Rank.group launcher.size)
      (waits : waiters.watch rank = .waiting) (bounded : launcher.timeout = some timeout)
      (due : timeout.totalNanos ≤ waiters.clock) (runs : (child rank).RunsUntil waiters.clock) :
      Step launcher child waiters (waiters.put rank .killing)
  | dies {rank : Rank} (member : rank ∈ Rank.group launcher.size)
      (killing : waiters.watch rank = .killing) :
      Step launcher child waiters (waiters.put rank (.done (launcher.killed rank (child rank))))
  | collects {rank : Rank} {exit : RankExit}
      (first : (Rank.group launcher.size)[waiters.collected.length]? = some rank)
      (done : waiters.watch rank = .done exit) :
      Step launcher child waiters { waiters with collected := waiters.collected ++ [exit] }
  /-- Time passes while somebody waits for a process that runs, and not past the deadline. -/
  | passes {later : Nat} (forward : waiters.clock < later)
      (prompt : ∀ rank ∈ Rank.group launcher.size, waiters.watch rank = .waiting →
        (child rank).EndsBy waiters.clock ∨
          ∀ timeout ∈ launcher.timeout, later ≤ timeout.totalNanos)
      (awaited : ∃ rank ∈ Rank.group launcher.size, waiters.watch rank = .waiting ∧
        (child rank).RunsUntil later) :
      Step launcher child waiters { waiters with clock := later }

abbrev Reaches (launcher : Launcher) (child : Rank → Child) : Waiters → Waiters → Prop :=
  Relation.ReflTransGen (Step launcher child)

/-- What a waiter has come to fits the clock and the process that it waits for. -/
def Fits (launcher : Launcher) (rank : Rank) (child : Child) (clock : Nat) : Watch → Prop
  | .waiting => ∀ timeout ∈ launcher.timeout,
      clock ≤ timeout.totalNanos ∨ child.EndsBy timeout.totalNanos
  | .killing => ∃ timeout ∈ launcher.timeout, child.RunsUntil timeout.totalNanos
  | .done exit => launcher.Reports rank child exit

structure Sound (launcher : Launcher) (child : Rank → Child) (waiters : Waiters) : Prop where
  fits : ∀ rank ∈ Rank.group launcher.size,
    Fits launcher rank (child rank) waiters.clock (waiters.watch rank)
  collected : List.Forall₂ (fun rank => launcher.Reports rank (child rank))
    ((Rank.group launcher.size).take waiters.collected.length) waiters.collected

theorem sound_start : Sound launcher child start where
  fits _ _ _ _ := .inl (Nat.zero_le _)
  collected := .nil

theorem Sound.put {rank : Rank} {watch : Watch} (sound : Sound launcher child waiters)
    (fits : Fits launcher rank (child rank) waiters.clock watch) :
    Sound launcher child (waiters.put rank watch) where
  fits other member := by
    by_cases same : other = rank
    · subst same
      rw [put_watch_self]
      exact fits
    · rw [put_watch_of_ne _ _ same]
      exact sound.fits other member
  collected := sound.collected

theorem Sound.step (sound : Sound launcher child waiters)
    (moves : Step launcher child waiters next) : Sound launcher child next := by
  cases moves with
  | @ends rank ended status member waits ends early =>
    have known := sound.fits rank member
    rw [waits] at known
    refine sound.put (.natural ends fun timeout bounded => ?_)
    -- The clock may have passed the deadline, but then the process had ended by it.
    rcases known timeout bounded with soon | ⟨moment, _, same, soon⟩
    · exact early.trans soon
    · rw [ends] at same
      cases same
      exact soon
  | expires member waits bounded due runs =>
    exact sound.put ⟨_, bounded, fun ended status ends => due.trans (runs ended status ends)⟩
  | dies member killing =>
    have known := sound.fits _ member
    rw [killing] at known
    obtain ⟨timeout, bounded, late⟩ := known
    exact sound.put (.killed bounded late)
  | collects first done =>
    have known := sound.fits _ (List.mem_of_getElem? first)
    rw [done] at known
    refine ⟨sound.fits, ?_⟩
    rw [List.length_append, List.length_singleton, List.take_add_one, first]
    exact List.rel_append sound.collected (.cons known .nil)
  | @passes later forward prompt awaited =>
    refine ⟨fun rank member => ?_, sound.collected⟩
    have known := sound.fits rank member
    cases watch : waiters.watch rank with
    | waiting =>
      rw [watch] at known
      intro timeout bounded
      rcases prompt rank member watch with ⟨ended, status, ends, early⟩ | within
      · refine .inr ?_
        rcases known timeout bounded with soon | ended
        · exact ⟨ended, status, ends, early.trans soon⟩
        · exact ended
      · exact .inl (within timeout bounded)
    | killing => rwa [watch] at known
    | done exit => rwa [watch] at known

theorem Sound.reached (reaches : Reaches launcher child start waiters) :
    Sound launcher child waiters := by
  induction reaches with
  | refl => exact sound_start
  | tail _ moves ih => exact ih.step moves

def Bounded (launcher : Launcher) (child : Rank → Child) : Prop :=
  launcher.timeout = none → ∀ rank ∈ Rank.group launcher.size, (child rank).ending ≠ none

theorem moves (bounded : Bounded launcher child)
    (rest : waiters.collected.length < (Rank.group launcher.size).length) :
    ∃ next, Step launcher child waiters next := by
  have first := List.getElem?_eq_getElem rest
  have member := List.getElem_mem rest
  generalize (Rank.group launcher.size)[waiters.collected.length] = rank at first member
  cases watch : waiters.watch rank with
  | done exit => exact ⟨_, .collects first watch⟩
  | killing => exact ⟨_, .dies member watch⟩
  | waiting =>
    by_cases gone : (child rank).EndsBy waiters.clock
    · obtain ⟨ended, status, ends, early⟩ := gone
      exact ⟨_, .ends member watch ends early⟩
    have runs := Child.runsUntil_of_not_endsBy gone
    cases limit : launcher.timeout with
    | none =>
      obtain ⟨⟨ended, status⟩, ends⟩ :=
        Option.ne_none_iff_exists'.mp (bounded limit rank member)
      refine ⟨_, .passes (runs ended status ends) (fun _ _ _ => .inr (by simp [limit]))
        ⟨rank, member, watch, fun other _ same => ?_⟩⟩
      rw [ends] at same
      cases same
      exact Nat.le_refl _
    | some timeout =>
      by_cases due : timeout.totalNanos ≤ waiters.clock
      · exact ⟨_, .expires member watch limit due fun ended status ends =>
          (Nat.lt_of_succ_le (runs ended status ends)).le⟩
      · exact ⟨_, .passes (Nat.lt_succ_self _)
          (fun _ _ _ => .inr (by simpa [limit, Nat.succ_le_iff] using due))
          ⟨rank, member, watch, runs⟩⟩

def horizon (launcher : Launcher) (child : Rank → Child) : Nat :=
  ((launcher.timeout.map Duration.totalNanos).toList ++
    (Rank.group launcher.size).filterMap fun rank => (child rank).ending.map Prod.fst).sum

theorem timeout_le_horizon {timeout : Duration} (limit : launcher.timeout = some timeout) :
    timeout.totalNanos ≤ horizon launcher child := by
  refine List.le_sum_of_mem (List.mem_append_left _ ?_)
  simp [limit]

theorem ended_le_horizon {rank : Rank} {ended : Nat} {status : WaitStatus}
    (member : rank ∈ Rank.group launcher.size)
    (ends : (child rank).ending = some (ended, status)) : ended ≤ horizon launcher child := by
  refine List.le_sum_of_mem (List.mem_append_right _ ?_)
  exact List.mem_filterMap.mpr ⟨rank, member, by rw [ends]; rfl⟩

def left (launcher : Launcher) (child : Rank → Child) (waiters : Waiters) : Nat :=
  (horizon launcher child - waiters.clock) +
    ((Rank.group launcher.size).map fun rank => (waiters.watch rank).left).sum +
    ((Rank.group launcher.size).length - waiters.collected.length)

theorem left_put {rank : Rank} {watch : Watch} (member : rank ∈ Rank.group launcher.size)
    (less : watch.left < (waiters.watch rank).left) :
    left launcher child (waiters.put rank watch) < left launcher child waiters := by
  have sum : ((Rank.group launcher.size).map fun other =>
        ((waiters.put rank watch).watch other).left).sum <
      ((Rank.group launcher.size).map fun other => (waiters.watch other).left).sum := by
    refine List.sum_lt_sum _ _ (fun other _ => ?_) ⟨rank, member, by simpa using less⟩
    by_cases same : other = rank
    · subst same
      simpa using less.le
    · rw [put_watch_of_ne _ _ same]
  simp only [left, put_clock, put_collected]
  omega

theorem left_step (bounded : Bounded launcher child) (moves : Step launcher child waiters next) :
    left launcher child next < left launcher child waiters := by
  cases moves with
  | ends member waits => exact left_put member (by simp [waits, Watch.left])
  | expires member waits => exact left_put member (by simp [waits, Watch.left])
  | dies member killing => exact left_put member (by simp [killing, Watch.left])
  | collects first done =>
    have rest := (List.getElem?_eq_some_iff.mp first).1
    simp only [left, List.length_append, List.length_singleton]
    omega
  | @passes later forward prompt awaited =>
    obtain ⟨rank, member, waits, runs⟩ := awaited
    have soon : later ≤ horizon launcher child := by
      cases ends : (child rank).ending with
      | some ending => exact (runs _ _ ends).trans (ended_le_horizon member ends)
      | none =>
        rcases prompt rank member waits with ⟨_, _, some, _⟩ | within
        · rw [ends] at some
          cases some
        · cases limit : launcher.timeout with
          | none => exact absurd ends (bounded limit rank member)
          | some timeout => exact (within timeout limit).trans (timeout_le_horizon limit)
    simp only [left]
    omega

theorem wellFounded_step (bounded : Bounded launcher child) :
    WellFounded fun later earlier => Step launcher child earlier later :=
  Subrelation.wf (fun moves => left_step bounded moves)
    (measure (left launcher child)).wf

theorem collected_at_rest (bounded : Bounded launcher child)
    (reaches : Reaches launcher child start waiters)
    (rests : ∀ next, ¬Step launcher child waiters next) :
    List.Forall₂ (fun rank => launcher.Reports rank (child rank)) (Rank.group launcher.size)
      waiters.collected := by
  have sound := Sound.reached reaches
  have all : (Rank.group launcher.size).length ≤ waiters.collected.length :=
    Nat.le_of_not_lt fun rest => (moves bounded rest).elim rests
  have collected := sound.collected
  rwa [List.take_of_length_le all] at collected

/-- Whatever the order in which the waiters move, the launcher collects what is expected. -/
theorem collected_eq {exits : List RankExit} (bounded : Bounded launcher child)
    (untied : ∀ rank ∈ Rank.group launcher.size, ∀ timeout ∈ launcher.timeout, ∀ ended status,
      (child rank).ending = some (ended, status) → ended ≠ timeout.totalNanos)
    (expected : ((Rank.group launcher.size).mapM fun rank => launcher.await rank (child rank)) =
      .ok exits)
    (reaches : Reaches launcher child start waiters)
    (rests : ∀ next, ¬Step launcher child waiters next) : waiters.collected = exits := by
  have reports := collected_at_rest bounded reaches rests
  have awaited : List.Forall₂ (fun rank exit => launcher.await rank (child rank) = .ok exit)
      (Rank.group launcher.size) waiters.collected := by
    rw [List.forall₂_iff_zip] at reports ⊢
    refine ⟨reports.1, fun paired => ?_⟩
    exact Launcher.await_of_reports (reports.2 paired) (untied _ (List.of_mem_zip paired).1)
  rw [mapM_eq_ok awaited] at expected
  exact Except.ok.inj expected

end Waiters
end FaultDrill
