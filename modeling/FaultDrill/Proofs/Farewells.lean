import FaultDrill.Proofs.Stations
import FaultDrill.Proofs.Rank
import FaultDrill.Proofs.Utf8
set_option autoImplicit false

/-!
# The account of the farewells

The coordinator asks once who has left, and then hears those members that have not, in rank order.
So it learns of a departure from the list or from the failure of a message, and whichever tells,
only the chosen participant may be missing. The loop over the members is told as a tally: it comes
to the end, or it stops at the first member that is not settled.
-/
namespace FaultDrill.Schedule
open Text Wire Station

def printed (deeds : List Action.Deed) : List String :=
  deeds.filterMap fun
    | ⟨.print text, _⟩ => some text
    | _ => none

def asked (deeds : List Action.Deed) : List Rank :=
  deeds.filterMap fun
    | ⟨.call (.recv source _), _⟩ => some source
    | _ => none

theorem printed_append (first last : List Action.Deed) :
    printed (first ++ last) = printed first ++ printed last :=
  List.filterMap_append

theorem asked_append (first last : List Action.Deed) :
    asked (first ++ last) = asked first ++ asked last :=
  List.filterMap_append

/-- A group that names `left` as those who have left, and whose answer to the wait for a message is
`heard` of its source. -/
def Gives (left : List Rank) (heard : Rank → Except GroupError (List UInt8)) : Action.Deed → Prop
  | ⟨.call .departed, answer⟩ => answer = left
  | ⟨.call (.recv source _), answer⟩ => answer = heard source
  | _ => True

variable {left : List Rank} {heard : Rank → Except GroupError (List UInt8)} {failing source : Rank}
  {parameters : RunParameters}

def Says (heard : Rank → Except GroupError (List UInt8)) (source : Rank) (line : String) : Prop :=
  ∃ bytes, heard source = .ok bytes ∧ Utf8.decode bytes = .ok line

/-- The line of a participant, if it is asked for one and gives it. -/
def said (left : List Rank) (heard : Rank → Except GroupError (List UInt8)) (source : Rank) :
    Option String :=
  if source ∈ left then none
  else match heard source with
  | .ok bytes => (Utf8.decode bytes).toOption
  | .error _ => none

/-- The participant says its line, or it is the chosen one and has left. -/
def Settled (failing : Rank) (heard : Rank → Except GroupError (List UInt8)) (source : Rank) :
    Prop :=
  (∃ line, Says heard source line) ∨
    source = failing ∧ heard source = .error (.peerDeparted source)

inductive Fails (failing : Rank) (heard : Rank → Except GroupError (List UInt8)) (source : Rank) :
    GroupError → Prop where
  | departed (lost : heard source = .error (.peerDeparted source)) (other : source ≠ failing) :
      Fails failing heard source (.unexpectedDeparture source)
  | garbled {bytes : List UInt8} {fault : Utf8.Fault} (received : heard source = .ok bytes)
      (unread : Utf8.decode bytes = .error fault) :
      Fails failing heard source
        (.protocol s!"Rank {source} sent a non UTF-8 line: {fault.message}")
  | failed {error : GroupError} (failed : heard source = .error error)
      (stays : ∀ rank, error ≠ .peerDeparted rank) : Fails failing heard source error

/-- A participant is reported to have left only when it is awaited itself. -/
def OwnDepartures (heard : Rank → Except GroupError (List UInt8)) : Prop :=
  ∀ source rank, heard source = .error (.peerDeparted rank) → rank = source

theorem said_left (gone : source ∈ left) : said left heard source = none := if_pos gone

theorem said_eq_some {line : String} :
    said left heard source = some line ↔ source ∉ left ∧ Says heard source line := by
  unfold said Says
  by_cases gone : source ∈ left
  · simp [gone]
  · rw [if_neg gone]
    cases heard source with
    | ok bytes =>
      cases read : Utf8.decode bytes <;> simp [gone, read, Except.toOption]
    | error error => simp

theorem said_departed (lost : heard source = .error (.peerDeparted source)) :
    said left heard source = none := by
  simp [said, lost]

theorem Fails.not_settled {error : GroupError} (h : Fails failing heard source error) :
    ¬Settled failing heard source := by
  rintro (⟨line, bytes, received, read⟩ | ⟨chosen, lost⟩)
  · cases h with
    | departed lost => cases received.symm.trans lost
    | garbled received' unread =>
      cases received.symm.trans received'
      cases read.symm.trans unread
    | failed failed => cases received.symm.trans failed
  · cases h with
    | departed _ other => exact other chosen
    | garbled received => cases lost.symm.trans received
    | failed failed stays =>
      cases lost.symm.trans failed
      exact stays _ rfl

theorem excused_cases (parameters : RunParameters) (own : OwnDepartures heard) (source : Rank) :
    (∃ line, Says heard source line ∧
      excused parameters ((heard source).bind (lineOf source)) = .ok (some line)) ∨
    (source = parameters.failing ∧ heard source = .error (.peerDeparted source) ∧
      excused parameters ((heard source).bind (lineOf source)) = .ok none) ∨
    ∃ error, Fails parameters.failing heard source error ∧
      excused parameters ((heard source).bind (lineOf source)) = .error error := by
  cases answer : heard source with
  | ok bytes =>
    cases read : Utf8.decode bytes with
    | ok line =>
      exact .inl ⟨line, ⟨bytes, answer, read⟩, by simp [Except.bind, lineOf, read, excused]⟩
    | error fault =>
      exact .inr (.inr ⟨_, .garbled answer read, by simp [Except.bind, lineOf, read, excused]⟩)
  | error error =>
    right
    by_cases departs : ∃ rank, error = .peerDeparted rank
    · obtain ⟨rank, rfl⟩ := departs
      obtain rfl := own source rank answer
      by_cases chosen : rank = parameters.failing
      · exact .inl ⟨chosen, rfl, if_pos chosen⟩
      · exact .inr ⟨_, .departed answer chosen, if_neg chosen⟩
    · have stays : ∀ rank, error ≠ .peerDeparted rank := fun rank he => departs ⟨rank, he⟩
      refine .inr ⟨error, .failed answer stays, ?_⟩
      cases error with
      | peerDeparted rank => exact absurd rfl (stays rank)
      | _ => rfl

structure Handled (parameters : RunParameters) (left : List Rank)
    (heard : Rank → Except GroupError (List UInt8)) (sources : List Rank)
    (deeds : List Action.Deed) : Prop where
  settled : ∀ source ∈ sources, source ∉ left → Settled parameters.failing heard source
  prints : printed deeds = (sources.filterMap (said left heard)).map (· ++ "\n")
  asks : asked deeds = sources.filter (· ∉ left)

/-- All of the participants are dealt with, or those before the first that is not settled; the wait
for that one is the last deed. -/
inductive Tally (parameters : RunParameters) (left : List Rank)
    (heard : Rank → Except GroupError (List UInt8)) (sources : List Rank) :
    List Action.Deed → Except GroupError (List String) → Prop where
  | full {deeds : List Action.Deed} (handled : Handled parameters left heard sources deeds) :
      Tally parameters left heard sources deeds (.ok (sources.filterMap (said left heard)))
  | stopped {before after : List Rank} {source : Rank} {deeds : List Action.Deed}
      {error : GroupError} (split : sources = before ++ source :: after)
      (handled : Handled parameters left heard before deeds) (stays : source ∉ left)
      (fails : Fails parameters.failing heard source error) :
      Tally parameters left heard sources
        (deeds ++ [⟨.call (.recv source Frame.textTag), heard source⟩]) (.error error)

namespace Handled

variable {sources rest : List Rank} {deeds later : List Action.Deed}

theorem nil : Handled parameters left heard [] [] := ⟨nofun, rfl, rfl⟩

theorem append (h : Handled parameters left heard sources deeds)
    (h' : Handled parameters left heard rest later) :
    Handled parameters left heard (sources ++ rest) (deeds ++ later) where
  settled source mem := (List.mem_append.mp mem).elim (h.settled source) (h'.settled source)
  prints := by
    rw [printed_append, h.prints, h'.prints, List.filterMap_append, List.map_append]
  asks := by
    rw [asked_append, h.asks, h'.asks, List.filter_append]

theorem passed_over (gone : source ∈ left) (entry : LogEntry) :
    Handled parameters left heard [source] [⟨.note entry, ()⟩] where
  settled other mem stays := absurd (List.mem_singleton.mp mem ▸ gone) stays
  prints := by simp [printed, said_left gone]
  asks := by simp [asked, gone]

theorem told {line : String} (stays : source ∉ left) (speaks : Says heard source line) :
    Handled parameters left heard [source]
      [⟨.call (.recv source Frame.textTag), heard source⟩, ⟨.print (line ++ "\n"), ()⟩] where
  settled other mem _ := List.mem_singleton.mp mem ▸ .inl ⟨line, speaks⟩
  prints := by simp [printed, said_eq_some.mpr ⟨stays, speaks⟩]
  asks := by simp [asked, stays]

theorem excused (stays : source ∉ left) (chosen : source = parameters.failing)
    (lost : heard source = .error (.peerDeparted source)) (entry : LogEntry) :
    Handled parameters left heard [source]
      [⟨.call (.recv source Frame.textTag), heard source⟩, ⟨.note entry, ()⟩] where
  settled other mem _ := List.mem_singleton.mp mem ▸ .inr ⟨chosen, lost⟩
  prints := by simp [printed, said_departed lost]
  asks := by simp [asked, stays]

end Handled

theorem Tally.cons {sources : List Rank} {first deeds : List Action.Deed}
    {result : Except GroupError (List String)}
    (handled : Handled parameters left heard [source] first)
    (rest : Tally parameters left heard sources deeds result) :
    Tally parameters left heard (source :: sources) (first ++ deeds)
      (result.map ((said left heard source).toList ++ ·)) := by
  cases rest with
  | full others =>
    have lines : (source :: sources).filterMap (said left heard) =
        (said left heard source).toList ++ sources.filterMap (said left heard) := by
      cases spoken : said left heard source <;> simp [spoken]
    rw [Except.map, ← lines]
    exact .full (handled.append others)
  | @stopped before after other deeds error split others stays fails =>
    rw [← List.append_assoc]
    exact .stopped (congrArg (source :: ·) split) (handled.append others) stays fails

theorem ran_map {α β : Type} {stretch : Schedule α} {f : α → β} {deeds : List Action.Deed}
    {result : Except GroupError β}
    (ran : (stretch >>= fun value => return f value).run.Ran deeds result) :
    ∃ given, stretch.run.Ran deeds given ∧ result = given.map f := by
  rcases ran_bind ran with ⟨error, rfl, before⟩ | ⟨value, first, last, rfl, before, after⟩
  · exact ⟨.error error, before, rfl⟩
  · obtain ⟨rfl, rfl⟩ := Action.ran_done after
    exact ⟨.ok value, by rwa [List.append_nil], rfl⟩

/-- One round of the loop: its participant is dealt with and the others follow, or it is not
settled. -/
theorem farewellsFrom_round (observer : Rank) (own : OwnDepartures heard) {first count : Nat}
    {deeds : List Action.Deed} {result : Except GroupError (List String)}
    (ran : (farewellsFrom observer parameters left first (count + 1)).run.Ran deeds result)
    (gives : ∀ deed ∈ deeds, Gives left heard deed) :
    (∃ round later others, deeds = round ++ later ∧
      Handled parameters left heard [⟨UInt32.ofNat first⟩] round ∧
      (farewellsFrom observer parameters left (first + 1) count).run.Ran later others ∧
      result = others.map ((said left heard ⟨UInt32.ofNat first⟩).toList ++ ·)) ∨
    ∃ error, ⟨UInt32.ofNat first⟩ ∉ left ∧
      Fails parameters.failing heard ⟨UInt32.ofNat first⟩ error ∧ result = .error error ∧
      deeds = [⟨.call (.recv ⟨UInt32.ofNat first⟩ Frame.textTag), heard ⟨UInt32.ofNat first⟩⟩] := by
  have silent : ∀ others : Except GroupError (List String), others = others.map ([] ++ ·) :=
    fun others => by cases others <;> rfl
  cases gone : left.contains ⟨UInt32.ofNat first⟩ with
  | true =>
    have mem := List.contains_iff_mem.mp gone
    rw [farewellsFrom, if_pos gone] at ran
    obtain ⟨_, later, rfl, remains⟩ := Action.ran_ask ran
    refine .inl ⟨[_], later, result, rfl, .passed_over mem _, remains, ?_⟩
    rw [said_left mem]
    exact silent result
  | false =>
    have stays : ⟨UInt32.ofNat first⟩ ∉ left := by simpa using gone
    rw [farewellsFrom_heard observer parameters count gone] at ran
    obtain ⟨answer, later, rfl, remains⟩ := Action.ran_ask ran
    obtain rfl : answer = heard ⟨UInt32.ofNat first⟩ := gives _ List.mem_cons_self
    change (demand (excused parameters _) >>= acknowledge observer parameters _).run.Ran _ _
      at remains
    -- A line is printed, the chosen one is only noted, and anything else is the end of the loop.
    rcases excused_cases parameters own ⟨UInt32.ofNat first⟩ with
      ⟨line, speaks, verdict⟩ | ⟨chosen, lost, verdict⟩ | ⟨error, fails, verdict⟩
    · rw [verdict] at remains
      obtain ⟨_, later, rfl, goes⟩ := Action.ran_ask remains
      obtain ⟨others, follow, rfl⟩ := ran_map goes
      refine .inl ⟨[_, _], later, others, rfl, .told stays speaks, follow, ?_⟩
      rw [said_eq_some.mpr ⟨stays, speaks⟩]
      rfl
    · rw [verdict] at remains
      obtain ⟨_, later, rfl, goes⟩ := Action.ran_ask remains
      refine .inl ⟨[_, _], later, result, rfl, .excused stays chosen lost _, goes, ?_⟩
      rw [said_departed lost]
      exact silent result
    · rw [verdict] at remains
      obtain ⟨rfl, rfl⟩ := Action.ran_done remains
      exact .inr ⟨error, stays, fails, rfl, rfl⟩

theorem farewellsFrom_tally (observer : Rank) (own : OwnDepartures heard) {first count : Nat}
    {deeds : List Action.Deed} {result : Except GroupError (List String)}
    (ran : (farewellsFrom observer parameters left first count).run.Ran deeds result)
    (gives : ∀ deed ∈ deeds, Gives left heard deed) :
    Tally parameters left heard (Rank.interval first count) deeds result := by
  induction count generalizing first deeds result with
  | zero =>
    obtain ⟨rfl, rfl⟩ := Action.ran_done ran
    exact .full .nil
  | succ count ih =>
    rcases farewellsFrom_round observer own ran gives with
      ⟨round, later, others, rfl, handled, follow, rfl⟩ | ⟨error, stays, fails, rfl, rfl⟩
    · exact (ih follow fun deed mem => gives deed (List.mem_append_right round mem)).cons handled
    · rw [← List.nil_append [_]]
      exact .stopped (List.nil_append _).symm .nil stays fails

theorem collectFarewells_cases {seat : Seat} (own : OwnDepartures heard)
    {deeds : List Action.Deed} {result : Except GroupError (List String)}
    (ran : (collectFarewells seat parameters).run.Ran deeds result)
    (gives : ∀ deed ∈ deeds, Gives left heard deed) :
    (∃ rank, left.find? (· ≠ parameters.failing) = some rank ∧
      result = .error (.unexpectedDeparture rank) ∧ deeds = [⟨.call .departed, left⟩]) ∨
    (∀ rank ∈ left, rank = parameters.failing) ∧ ∃ later others,
      deeds = ⟨.call .departed, left⟩ :: ⟨.print (seat.rank.farewell ++ "\n"), ()⟩ :: later ∧
      Tally parameters left heard (Rank.members seat.size) later others ∧
      result = others.map (seat.rank.farewell :: ·) := by
  rw [collectFarewells_eq, bind_assoc] at ran
  obtain ⟨answer, later, rfl, remains⟩ := Action.ran_ask ran
  obtain rfl : answer = left := gives _ List.mem_cons_self
  change (demand (accounted parameters answer) >>= _).run.Ran _ _ at remains
  cases missing : answer.find? (· ≠ parameters.failing) with
  | some rank =>
    rw [accounted, missing] at remains
    obtain ⟨rfl, rfl⟩ := Action.ran_done remains
    exact .inl ⟨rank, rfl, rfl, rfl⟩
  | none =>
    rw [accounted, missing] at remains
    obtain ⟨_, later, rfl, goes⟩ := Action.ran_ask remains
    obtain ⟨others, follow, rfl⟩ := ran_map goes
    refine .inr ⟨by simpa using missing, later, others, rfl, ?_, rfl⟩
    exact farewellsFrom_tally seat.rank own follow fun deed mem =>
      gives deed (List.mem_cons_of_mem _ (List.mem_cons_of_mem _ mem))

theorem length_filterMap_but_one {α β : Type} [DecidableEq α] {f : α → Option β} {one : α}
    {list : List α} (nodup : list.Nodup) (others : ∀ a ∈ list, a ≠ one → (f a).isSome) :
    (list.filterMap f).length =
      if one ∈ list ∧ f one = none then list.length - 1 else list.length := by
  induction list with
  | nil => simp
  | cons a rest ih =>
    obtain ⟨fresh, nodup⟩ := List.nodup_cons.mp nodup
    have lengths := ih nodup fun b mem => others b (List.mem_cons_of_mem a mem)
    by_cases same : a = one
    · subst same
      rw [if_neg fun both => fresh both.1] at lengths
      cases spoken : f a <;> simp [spoken, lengths]
    · obtain ⟨b, spoken⟩ := Option.isSome_iff_exists.mp (others a List.mem_cons_self same)
      rw [List.filterMap_cons_some spoken, List.length_cons, lengths]
      by_cases silent : one ∈ rest ∧ f one = none
      · have nonempty := List.length_pos_of_mem silent.1
        rw [if_pos silent, if_pos ⟨List.mem_cons_of_mem a silent.1, silent.2⟩, List.length_cons]
        omega
      · rw [if_neg silent, if_neg fun both => silent ⟨?_, both.2⟩, List.length_cons]
        exact (List.mem_cons.mp both.1).resolve_left (Ne.symm same)

/-- The result of the farewells and what is printed and asked before it, told by what the group
answers. -/
structure Accounted (seat : Seat) (parameters : RunParameters) (left : List Rank)
    (heard : Rank → Except GroupError (List UInt8)) (deeds : List Action.Deed)
    (result : Except GroupError (List String)) : Prop where
  succeeds : (∃ lines, result = .ok lines) ↔ (∀ rank ∈ left, rank = parameters.failing) ∧
    ∀ source ∈ Rank.members seat.size, source ∉ left → Settled parameters.failing heard source
  lines : ∀ lines, result = .ok lines →
    lines = seat.rank.farewell :: (Rank.members seat.size).filterMap (said left heard) ∧
      printed deeds = lines.map (· ++ "\n")
  others : ∀ lines, result = .ok lines → ∀ source ∈ Rank.members seat.size,
    source ≠ parameters.failing → ∃ line, said left heard source = some line
  number : ∀ lines, result = .ok lines → lines.length =
    if parameters.failing ∈ Rank.members seat.size ∧ said left heard parameters.failing = none
    then seat.size.toNat - 1 else seat.size.toNat
  listed : ∀ rank, left.find? (· ≠ parameters.failing) = some rank →
    result = .error (.unexpectedDeparture rank) ∧ printed deeds = [] ∧ asked deeds = []
  stops : (∀ rank ∈ left, rank = parameters.failing) → ∀ error, result = .error error →
    ∃ before source after, Rank.members seat.size = before ++ source :: after ∧
      (∀ other ∈ before, other ∉ left → Settled parameters.failing heard other) ∧
      source ∉ left ∧ Fails parameters.failing heard source error ∧
      printed deeds =
        (seat.rank.farewell :: before.filterMap (said left heard)).map (· ++ "\n") ∧
      asked deeds = (before ++ [source]).filter (· ∉ left)

theorem not_all_of_listed {rank : Rank}
    (listed : left.find? (· ≠ parameters.failing) = some rank) :
    ¬∀ rank ∈ left, rank = parameters.failing := by
  intro all
  have other := List.find?_some listed
  exact of_decide_eq_true other (all rank (List.mem_of_find?_eq_some listed))

namespace Accounted

variable {seat : Seat}

theorem of_listed {rank : Rank}
    (listed : left.find? (· ≠ parameters.failing) = some rank) :
    Accounted seat parameters left heard [⟨.call .departed, left⟩]
      (.error (.unexpectedDeparture rank)) := by
  constructor
  case succeeds => exact ⟨nofun, fun both => absurd both.1 (not_all_of_listed listed)⟩
  case lines => nofun
  case others => nofun
  case number => nofun
  case listed =>
    intro other found
    obtain rfl := Option.some.inj (listed.symm.trans found)
    exact ⟨rfl, rfl, rfl⟩
  case stops => exact fun all => absurd all (not_all_of_listed listed)

theorem of_full {later : List Action.Deed} (inhabited : 0 < seat.size.toNat)
    (all : ∀ rank ∈ left, rank = parameters.failing)
    (handled : Handled parameters left heard (Rank.members seat.size) later) :
    Accounted seat parameters left heard
      (⟨.call .departed, left⟩ :: ⟨.print (seat.rank.farewell ++ "\n"), ()⟩ :: later)
      (.ok (seat.rank.farewell :: (Rank.members seat.size).filterMap (said left heard))) := by
  have spoken : ∀ source ∈ Rank.members seat.size, source ≠ parameters.failing →
      ∃ line, said left heard source = some line := by
    intro source mem other
    have stays : source ∉ left := fun gone => other (all source gone)
    obtain ⟨line, speaks⟩ | ⟨chosen, -⟩ := handled.settled source mem stays
    · exact ⟨line, said_eq_some.mpr ⟨stays, speaks⟩⟩
    · exact absurd chosen other
  constructor
  case succeeds => exact ⟨fun _ => ⟨all, handled.settled⟩, fun _ => ⟨_, rfl⟩⟩
  case lines =>
    rintro _ ⟨⟩
    exact ⟨rfl, congrArg (_ :: ·) handled.prints⟩
  case others => exact fun _ _ => spoken
  case number =>
    rintro _ ⟨⟩
    have length := length_filterMap_but_one (Rank.nodup_members seat.size) fun source mem other =>
      Option.isSome_iff_exists.mpr (spoken source mem other)
    rw [Rank.members, Rank.length_interval, ← Rank.members] at length
    rw [List.length_cons, length]
    split
    · rename_i silent
      have bounds := Rank.mem_members.mp silent.1
      omega
    · omega
  case listed => exact fun _ listed => absurd all (not_all_of_listed listed)
  case stops => exact fun _ _ failed => by cases failed

theorem of_stopped {before after : List Rank} {deeds : List Action.Deed} {error : GroupError}
    (all : ∀ rank ∈ left, rank = parameters.failing)
    (split : Rank.members seat.size = before ++ source :: after)
    (handled : Handled parameters left heard before deeds) (stays : source ∉ left)
    (fails : Fails parameters.failing heard source error) :
    Accounted seat parameters left heard
      (⟨.call .departed, left⟩ :: ⟨.print (seat.rank.farewell ++ "\n"), ()⟩ ::
        (deeds ++ [⟨.call (.recv source Frame.textTag), heard source⟩])) (.error error) := by
  constructor
  case succeeds =>
    refine ⟨nofun, fun both => absurd (both.2 source ?_ stays) fails.not_settled⟩
    rw [split]
    exact List.mem_append_right before List.mem_cons_self
  case lines => nofun
  case others => nofun
  case number => nofun
  case listed => exact fun _ listed => absurd all (not_all_of_listed listed)
  case stops =>
    rintro - _ ⟨⟩
    refine ⟨before, source, after, split, handled.settled, stays, fails, ?_, ?_⟩
    · change _ :: printed (deeds ++ _) = _
      rw [printed_append, handled.prints]
      exact congrArg (_ :: ·) (List.append_nil _)
    · change asked (deeds ++ _) = _
      rw [asked_append, handled.asks, List.filter_append]
      simp [asked, stays]

end Accounted

/-- The farewells succeed just when nobody but the chosen participant is missing. Then every other
one has its line, in rank order after the coordinator's own; else the failure is that of the list,
or of the first member that is not settled, and what was collected before it is printed. -/
theorem farewells_are_accounted_for {seat : Seat}
    {answers : Action.interface.Surroundings} {past : List Action.Deed}
    (chosen : parameters.failing.index < seat.size) (own : OwnDepartures heard)
    (gives : ∀ deed ∈ ((collectFarewells seat parameters).run.meet answers past).1,
      Gives left heard deed) :
    Accounted seat parameters left heard
      ((collectFarewells seat parameters).run.meet answers past).1
      ((collectFarewells seat parameters).run.meet answers past).2 := by
  have inhabited : 0 < seat.size.toNat :=
    Nat.zero_lt_of_lt (UInt32.lt_iff_toNat_lt.mp chosen)
  have ran := Program.ran_meet answers past (collectFarewells seat parameters).run
  rcases collectFarewells_cases own ran gives with
    ⟨rank, listed, result, deeds⟩ | ⟨all, later, others, deeds, tally, result⟩
  · rw [deeds, result]
    exact .of_listed listed
  · rw [deeds, result]
    cases tally with
    | full handled => exact .of_full inhabited all handled
    | stopped split handled stays fails => exact .of_stopped all split handled stays fails

def company (left : List Rank) (heard : Rank → Except GroupError (List UInt8)) :
    Action.interface.Surroundings :=
  fun _ (action : Action) => match action with
    | .call .departed => left
    | .call (.recv source _) => heard source
    | .call (.broadcast ..) => .ok []
    | .call .barrier | .call (.send ..) | .call .finalize => .ok ()
    | .inject _ => FaultOutcome.survived
    | .sleep _ | .print _ | .note _ => ()

theorem company_gives {α : Type} (p : Program Action.interface α) (past : List Action.Deed) :
    ∀ deed ∈ (p.meet (company left heard) past).1, Gives left heard deed := by
  intro deed mem
  obtain ⟨before, answered⟩ := Program.answer_of_mem_meet mem
  obtain ⟨action, answer⟩ := deed
  obtain rfl : answer = company left heard before action := answered
  cases action with
  | call call => cases call <;> trivial
  | _ => trivial

def withoutThird (source : Rank) : Except GroupError (List UInt8) :=
  if source = ⟨2⟩ then .error (.peerDeparted source) else .ok (Utf8.encode source.farewell)

theorem withoutThird_own : OwnDepartures withoutThird := by
  intro source rank departs
  unfold withoutThird at departs
  split at departs <;> cases departs
  rfl

theorem withoutThird_says {source : Rank} (other : source ≠ ⟨2⟩) :
    Says withoutThird source source.farewell :=
  ⟨_, if_neg other, Utf8.decode_encode _⟩

/-- Of four, the third was chosen and is awaited in vain. -/
theorem farewells_are_accounted_for_four :
    let seat : Seat := ⟨.coordinator, 4, "hello"⟩
    let parameters : RunParameters := ⟨1, .fallback, ⟨2⟩⟩
    let run := (collectFarewells seat parameters).run.meet (company [] withoutThird) []
    Accounted seat parameters [] withoutThird run.1 run.2 ∧
      run.2 = .ok ([⟨0⟩, ⟨1⟩, ⟨3⟩].map Rank.farewell) := by
  intro seat parameters run
  have account : Accounted seat parameters [] withoutThird run.1 run.2 :=
    farewells_are_accounted_for (by decide) withoutThird_own (company_gives _ _)
  refine ⟨account, ?_⟩
  have settled : ∀ source ∈ Rank.members 4, source ∉ [] → Settled ⟨2⟩ withoutThird source := by
    intro source _ _
    by_cases third : source = ⟨2⟩
    · exact .inr ⟨third, if_pos third⟩
    · exact .inl ⟨_, withoutThird_says third⟩
  obtain ⟨lines, returns⟩ := account.succeeds.mpr ⟨nofun, settled⟩
  have second : said [] withoutThird ⟨1⟩ = some (⟨1⟩ : Rank).farewell :=
    said_eq_some.mpr ⟨nofun, withoutThird_says (by decide)⟩
  have third : said [] withoutThird ⟨2⟩ = none := said_departed rfl
  have fourth : said [] withoutThird ⟨3⟩ = some (⟨3⟩ : Rank).farewell :=
    said_eq_some.mpr ⟨nofun, withoutThird_says (by decide)⟩
  have members : Rank.members 4 = [⟨1⟩, ⟨2⟩, ⟨3⟩] := rfl
  have lines_eq := (account.lines lines returns).1
  rw [members, List.filterMap_cons_some second, List.filterMap_cons_none third,
    List.filterMap_cons_some fourth, List.filterMap_nil] at lines_eq
  rw [lines_eq] at returns
  exact returns

end FaultDrill.Schedule
