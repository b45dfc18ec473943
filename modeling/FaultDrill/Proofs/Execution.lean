import FaultDrill.Proofs.Moved
import FaultDrill.Proofs.Rank
set_option autoImplicit false

namespace FaultDrill

def Move.who : Move → Rank
  | .proceed who _ | .leave who | .crash who _ => who

/-- No connection breaks down in this move. -/
def Move.IsSound : Move → Prop
  | .proceed _ choice => choice.breakdown = none
  | .leave _ | .crash .. => True

instance (move : Move) : Decidable move.IsSound :=
  match move with
  | .proceed _ choice => inferInstanceAs (Decidable (choice.breakdown = none))
  | .leave _ | .crash .. => .isTrue trivial

/-- Going away is not something that a program does. -/
def Move.IsOwn : Move → Prop
  | .proceed .. | .leave _ => True
  | .crash .. => False

instance (move : Move) : Decidable move.IsOwn :=
  match move with
  | .proceed .. | .leave _ => .isTrue trivial
  | .crash .. => .isFalse id

namespace Network

variable {α : Type}

def solitary (program : Rank → Program Action.interface α) : Network α :=
  ⟨[{ communicator := .alone, activity := .running (program .coordinator) }]⟩

/-- The networks that a bootstrap ends with. -/
inductive Bootstrapped (size : UInt32) (program : Rank → Program Action.interface α) :
    Network α → Prop where
  | formed : Bootstrapped size program (formed size program)
  | solitary (single : size = 1) : Bootstrapped size program (solitary program)

structure Step (α : Type) where
  before : Network α
  move : Move
  after : Network α
  seen : List Event

inductive Execution (start : Network α) : List (Step α) → Network α → Prop where
  | start : Execution start [] start
  | next {steps : List (Step α)} {net net' : Network α} {move : Move} {seen : List Event}
      (earlier : Execution start steps net) (moved : net.move? move = some (net', seen)) :
      Execution start (steps ++ [⟨net, move, net', seen⟩]) net'

def execute? (start : Network α) (moves : List Move) : Option (List (Step α) × Network α) :=
  moves.foldlM (fun (steps, net) move =>
    (net.move? move).map fun (net', seen) => (steps ++ [⟨net, move, net', seen⟩], net')) ([], start)

theorem execution_of_execute {start net : Network α} {steps : List (Step α)} {moves : List Move}
    (h : start.execute? moves = some (steps, net)) :
    Execution start steps net ∧ steps.map Step.move = moves := by
  suffices hfrom : ∀ earlier middle, Execution start earlier middle →
      moves.foldlM (fun (steps, net) move => (net.move? move).map fun (net', seen) =>
        (steps ++ [⟨net, move, net', seen⟩], net')) (earlier, middle) = some (steps, net) →
      Execution start steps net ∧ steps.map Step.move = earlier.map Step.move ++ moves
    from hfrom [] start .start h
  clear h
  induction moves with
  | nil =>
    intro earlier middle run h
    cases h
    exact ⟨run, (List.append_nil _).symm⟩
  | cons move moves ih =>
    intro earlier middle run h
    rw [List.foldlM_cons] at h
    obtain ⟨_, hfirst, h⟩ := Option.bind_eq_some_iff.mp h
    obtain ⟨⟨net', seen⟩, moved, rfl⟩ := Option.map_eq_some_iff.mp hfirst
    obtain ⟨run', hmoves⟩ := ih _ _ (run.next moved) h
    exact ⟨run', by rw [hmoves, List.map_append, List.append_assoc]; rfl⟩

namespace Step

/-- The exchange that was answered in a step. -/
def answered? (step : Step α) : Option Answered :=
  match step.move with
  | .proceed who choice => step.before.answered? who choice
  | .leave _ | .crash .. => none

def sentTo? (peer : Rank) : Answered → Option Frame
  | ⟨.send target frame, .delivered⟩ => if target = peer then some frame else none
  | _ => none

def takenFrom? (peer : Rank) : Answered → Option Frame
  | ⟨.take source _, .frame frame⟩ => if source = peer then some frame else none
  | _ => none

end Step

def exchanges (steps : List (Step α)) (who : Rank) : List Answered :=
  (steps.filter fun step => step.move.who == who).filterMap Step.answered?

/-- What one participant has completely sent to another, in order. -/
def sent (steps : List (Step α)) (who peer : Rank) : List Frame :=
  (exchanges steps who).filterMap (Step.sentTo? peer)

/-- What one participant has taken of another's frames, in order. -/
def taken (steps : List (Step α)) (who peer : Rank) : List Frame :=
  (exchanges steps who).filterMap (Step.takenFrom? peer)

def seenOf (steps : List (Step α)) (who : Rank) : List Event :=
  (steps.filter fun step => step.move.who == who).flatMap Step.seen

def injections (steps : List (Step α)) : List (Rank × FaultCode) :=
  steps.flatMap fun step => step.seen.filterMap fun
    | .injected code _ => some (step.move.who, code)
    | _ => none

/-- A participant went away wherever it was. -/
def Crashed (steps : List (Step α)) (who : Rank) : Prop :=
  ∃ step ∈ steps, ∃ written, step.move = .crash who written

theorem not_crashed {steps : List (Step α)} {who : Rank}
    (own : ∀ step ∈ steps, step.move.who = who → step.move.IsOwn) : ¬Crashed steps who := by
  rintro ⟨step, hs, written, hm⟩
  have hown := own step hs
  rw [hm] at hown
  exact hown rfl

theorem exchanges_next (steps : List (Step α)) (step : Step α) (who : Rank) :
    exchanges (steps ++ [step]) who =
      exchanges steps who ++ if step.move.who = who then step.answered?.toList else [] := by
  rw [exchanges, List.filter_append, List.filterMap_append]
  congr 1
  by_cases h : step.move.who = who
  · cases ha : step.answered? <;> simp [h, ha]
  · simp [h]

theorem sent_next (steps : List (Step α)) (step : Step α) (who peer : Rank) :
    sent (steps ++ [step]) who peer = sent steps who peer ++
      if step.move.who = who then (step.answered?.bind (Step.sentTo? peer)).toList else [] := by
  rw [sent, exchanges_next, List.filterMap_append]
  congr 1
  split
  · cases step.answered? with
    | none => rfl
    | some answered => cases hs : Step.sentTo? peer answered <;> simp [hs]
  · rfl

theorem taken_next (steps : List (Step α)) (step : Step α) (who peer : Rank) :
    taken (steps ++ [step]) who peer = taken steps who peer ++
      if step.move.who = who then (step.answered?.bind (Step.takenFrom? peer)).toList else [] := by
  rw [taken, exchanges_next, List.filterMap_append]
  congr 1
  split
  · cases step.answered? with
    | none => rfl
    | some answered => cases ht : Step.takenFrom? peer answered <;> simp [ht]
  · rfl

theorem history_other {steps : List (Step α)} {step : Step α} {who : Rank}
    (hne : step.move.who ≠ who) (peer : Rank) :
    sent (steps ++ [step]) who peer = sent steps who peer ∧
      taken (steps ++ [step]) who peer = taken steps who peer := by
  rw [sent_next, taken_next, if_neg hne, if_neg hne, List.append_nil, List.append_nil]
  exact ⟨rfl, rfl⟩

section Answers

variable {steps : List (Step α)} {step : Step α} {peer : Rank}

theorem sent_send {frame : Frame} {result : Sent}
    (answered : step.answered? = some ⟨.send peer frame, result⟩) (a b : Rank) :
    sent (steps ++ [step]) a b = sent steps a b ++
      if step.move.who = a ∧ peer = b ∧ result = .delivered then [frame] else [] := by
  rw [sent_next, answered]
  congr 1
  cases result with
  | delivered => by_cases ha : step.move.who = a <;> by_cases hb : peer = b <;>
      simp [Step.sentTo?, ha, hb]
  | gone | failed => simp [Step.sentTo?]

theorem taken_take {wanted : Wanted} {taken' : Taken}
    (answered : step.answered? = some ⟨.take peer wanted, taken'⟩) (a b : Rank) :
    taken (steps ++ [step]) a b = taken steps a b ++
      if step.move.who = a ∧ peer = b then taken'.frames else [] := by
  rw [taken_next, answered]
  congr 1
  cases taken' with
  | frame frame => by_cases ha : step.move.who = a <;> by_cases hb : peer = b <;>
      simp [Step.takenFrom?, Taken.frames, ha, hb]
  | gone | failed => simp [Step.takenFrom?, Taken.frames]

theorem sent_other (h : ∀ frame result, step.answered? ≠ some ⟨.send peer frame, result⟩)
    (a : Rank) : sent (steps ++ [step]) a peer = sent steps a peer := by
  rw [sent_next]
  cases ha : step.answered? with
  | none => simp
  | some answered =>
    obtain ⟨exchange, answer⟩ := answered
    cases exchange with
    | send target frame =>
      have hne : target ≠ peer := by
        rintro rfl
        exact h frame answer ha
      cases answer <;> simp [Step.sentTo?, hne]
    | take | hangUp | note => simp [Step.sentTo?]

theorem taken_other (h : ∀ wanted taken', step.answered? ≠ some ⟨.take peer wanted, taken'⟩)
    (a : Rank) : taken (steps ++ [step]) a peer = taken steps a peer := by
  rw [taken_next]
  cases ha : step.answered? with
  | none => simp
  | some answered =>
    obtain ⟨exchange, answer⟩ := answered
    cases exchange with
    | take source wanted =>
      have hne : source ≠ peer := by
        rintro rfl
        exact h wanted answer ha
      cases answer <;> simp [Step.takenFrom?, hne]
    | send | hangUp | note => simp [Step.takenFrom?]

def Silent (steps : List (Step α)) (step : Step α) : Prop :=
  ∀ a b, sent (steps ++ [step]) a b = sent steps a b ∧
    taken (steps ++ [step]) a b = taken steps a b

theorem silent (h : ∀ exchange answer, step.answered? = some ⟨exchange, answer⟩ →
      (∀ peer frame, exchange ≠ .send peer frame) ∧ ∀ peer wanted, exchange ≠ .take peer wanted) :
    Silent steps step :=
  fun a _ => ⟨sent_other (fun _ _ hs => (h _ _ hs).1 _ _ rfl) a,
    taken_other (fun _ _ ht => (h _ _ ht).2 _ _ rfl) a⟩

theorem silent_none (h : step.answered? = none) : Silent steps step :=
  silent fun _ _ hs => by rw [h] at hs; cases hs

theorem silent_nowhere (h : (∃ frame, step.answered? = some ⟨.send peer frame, .gone⟩) ∨
    ∃ wanted, step.answered? = some ⟨.take peer wanted, .gone⟩) : Silent steps step := by
  intro a b
  rcases h with ⟨frame, h⟩ | ⟨wanted, h⟩
  · refine ⟨?_, taken_other (fun _ _ ht => ?_) a⟩
    · rw [sent_send h]
      simp
    · rw [h] at ht
      cases ht
  · refine ⟨sent_other (fun _ _ hs => ?_) a, ?_⟩
    · rw [h] at hs
      cases hs
    · rw [taken_take h]
      simp [Taken.frames]

end Answers

theorem seenOf_next (steps : List (Step α)) (step : Step α) (who : Rank) :
    seenOf (steps ++ [step]) who =
      seenOf steps who ++ if step.move.who = who then step.seen else [] := by
  rw [seenOf, List.filter_append, List.flatMap_append]
  congr 1
  by_cases h : step.move.who = who <;> simp [h]

theorem seenOf_other {steps : List (Step α)} {step : Step α} {who : Rank}
    (hne : step.move.who ≠ who) : seenOf (steps ++ [step]) who = seenOf steps who := by
  rw [seenOf_next, if_neg hne, List.append_nil]

theorem injections_next (steps : List (Step α)) (step : Step α) :
    injections (steps ++ [step]) = injections steps ++ injections [step] := by
  simp [injections]

theorem crashed_next (steps : List (Step α)) (step : Step α) (who : Rank) :
    Crashed (steps ++ [step]) who ↔
      Crashed steps who ∨ ∃ written, step.move = .crash who written := by
  simp [Crashed, or_and_right, exists_or]

/-- The moves, with what is seen of them and the exchange that is answered in them. -/
inductive Moved (net : Network α) : Move → Network α → List Event → Option Answered → Prop where
  | proceed {who : Rank} {choice : Choice} {net' : Network α} {seen : List Event}
      {answered : Option Answered} (proceeds : net.Proceeds who choice net' seen answered) :
      Moved net (.proceed who choice) net' seen answered
  | leave {who : Rank} {result : α}
      (doing : net.activity? who = some (.running (.done result))) :
      Moved net (.leave who) ((net.hangUp who).setActivity who (.left (some result))) [] none
  | crash {who : Rank} {written : Nat} (there : (net.site? who).isSome) :
      Moved net (.crash who written) (net.crash who written) [] none

theorem moved {net net' : Network α} {move : Move} {seen : List Event}
    (h : net.move? move = some (net', seen)) :
    net.Moved move net' seen (Step.mk net move net' seen).answered? := by
  cases move with
  | proceed who choice => exact .proceed (proceeds_of_proceed h)
  | leave who =>
    obtain ⟨after, hl, he⟩ := Option.map_eq_some_iff.mp h
    cases he
    obtain ⟨result, doing, rfl⟩ := leave_eq hl
    exact .leave doing
  | crash who written =>
    simp only [move?] at h
    split at h
    · rename_i there
      cases h
      exact .crash there
    · cases h

theorem activity_leave {net : Network α} {who : Rank} {activity : Activity α}
    (h : net.activity? who = some activity) (result : Option α) :
    ((net.hangUp who).setActivity who (.left result)).activity? who = some (.left result) :=
  activity_setActivity_self ((congrFun (alike_hangUp net who).activity who).trans h) _

theorem activity_crash {net : Network α} {who : Rank} (there : (net.site? who).isSome)
    (written : Nat) : (net.crash who written).activity? who = some (.left none) := by
  obtain ⟨site, hs⟩ := Option.isSome_iff_exists.mp there
  have doing : net.activity? who = some site.activity := by rw [activity?, hs]; rfl
  exact activity_leave ((congrFun (carryPart_leaves net who written).1.activity who).trans doing) _

/-- The shape of a group: everybody is there, and knows who it has connections with. -/
def IsStar (size : UInt32) (net : Network α) : Prop :=
  ∀ who, (net.communicator? who).map Communicator.shape =
    if who ∈ Rank.everybody size then
      some (who, size, who.peers size, !who.isCoordinator)
    else none

namespace IsStar

variable {size : UInt32} {net net' : Network α}

theorem alike (h : IsStar size net) (alike : net.Alike net') : IsStar size net' :=
  fun who => (alike.shape who).trans (h who)

theorem setActivity (h : IsStar size net) (who : Rank) (activity : Activity α) :
    IsStar size (net.setActivity who activity) := by
  intro r
  rw [communicator_setActivity]
  exact h r

theorem communicator (h : IsStar size net) {who : Rank} (hw : who ∈ Rank.everybody size) :
    ∃ c, net.communicator? who = some c ∧
      c.shape = (who, size, who.peers size, !who.isCoordinator) := by
  have hs := h who
  rw [if_pos hw] at hs
  exact Option.map_eq_some_iff.mp hs

theorem mem_everybody (h : IsStar size net) {who : Rank} {c : Communicator}
    (hc : net.communicator? who = some c) : who ∈ Rank.everybody size := by
  refine Decidable.byContradiction fun hw => ?_
  have hs := h who
  rw [if_neg hw, hc] at hs
  cases hs

theorem shape (h : IsStar size net) {who : Rank} {c : Communicator}
    (hc : net.communicator? who = some c) :
    c.shape = (who, size, who.peers size, !who.isCoordinator) := by
  have hs := h who
  rw [if_pos (h.mem_everybody hc), hc] at hs
  exact Option.some.inj hs

theorem end_isSome (h : IsStar size net) {a b : Rank} (ha : a ∈ Rank.everybody size)
    (hb : b ∈ a.peers size) : ∃ link, net.end? a b = some link := by
  obtain ⟨c, hc, hs⟩ := h.communicator ha
  have hp : c.topology.peers = a.peers size := congrArg (fun shape => shape.2.2.1) hs
  have hl := (c.topology.link_isSome b).mpr (hp ▸ hb)
  rw [end_eq, hc]
  exact Option.isSome_iff_exists.mp hl

theorem mem_of_end (h : IsStar size net) {a b : Rank} {link : Link}
    (hl : net.end? a b = some link) : a ∈ Rank.everybody size ∧ b ∈ a.peers size := by
  obtain ⟨c, hc, hcl⟩ := communicator_of_end hl
  have hs := h.shape hc
  have hp : c.topology.peers = a.peers size := congrArg (fun shape => shape.2.2.1) hs
  refine ⟨h.mem_everybody hc, ?_⟩
  rw [← hp, ← Topology.link_isSome, hcl]
  rfl

end IsStar

structure Starts (size : UInt32) (program : Rank → Program Action.interface α)
    (net : Network α) : Prop where
  star : IsStar size net
  activity : ∀ who, net.activity? who =
    if who ∈ Rank.everybody size then some (.running (program who)) else none
  ends : ∀ a b link, net.end? a b = some link → link = .opened b

theorem find_rank {β : Type} (rank : β → Rank) (f : Rank → β) (hf : ∀ r, rank (f r) = r)
    (ranks : List Rank) (who : Rank) :
    (ranks.map f).find? (fun b => rank b == who) = if who ∈ ranks then some (f who) else none := by
  induction ranks with
  | nil => rfl
  | cons r ranks ih =>
    rw [List.map_cons, List.find?_cons]
    by_cases h : r = who
    · simp [hf, h]
    · have hne : ¬ who = r := fun h' => h h'.symm
      have hb : (r == who) = false := by simpa using h
      rw [hf, hb, ih]
      simp [hne]

theorem starts_formed (size : UInt32) (program : Rank → Program Action.interface α) :
    Starts size program (formed size program) := by
  have hsite : ∀ who, (formed size program).site? who = if who ∈ Rank.everybody size then
      some (Site.mk (if who.isCoordinator then .coordinator size else .member who size)
        (.running (program who))) else none := by
    intro who
    refine find_rank Site.rank (fun r => Site.mk
      (if r.isCoordinator then .coordinator size else .member r size) (.running (program r)))
      (fun r => ?_) (Rank.everybody size) who
    change (if r.isCoordinator then Communicator.coordinator size else .member r size).rank = r
    split
    · rename_i hr
      exact (Rank.isCoordinator_iff.mp hr).symm
    · rfl
  have hlink : ∀ (ranks : List Rank) (b : Rank) (link : Link),
      (ranks.map Link.opened).find? (fun link => link.peer == b) = some link →
        link = .opened b := by
    intro ranks b link hl
    rw [find_rank Link.peer Link.opened (fun _ => rfl)] at hl
    split at hl
    · exact (Option.some.inj hl).symm
    · cases hl
  refine ⟨fun who => ?_, fun who => ?_, fun a b link hl => ?_⟩
  · rw [communicator?, hsite]
    by_cases hw : who ∈ Rank.everybody size
    · rw [if_pos hw, if_pos hw]
      rcases Rank.mem_everybody.mp hw with rfl | hm
      · simp only [Option.map_some, Rank.isCoordinator_iff.mpr rfl, if_true]
        have hp : ((Rank.members size).map Link.opened).map Link.peer = Rank.members size := by
          rw [List.map_map]
          exact List.map_id _
        exact congrArg (fun peers => some (Rank.coordinator, size, peers, false)) hp
      · have hc := Rank.isCoordinator_member hm
        simp [hc, Communicator.member, Communicator.shape, Topology.peers, Topology.links,
          Topology.isSpoke, Rank.peers, Link.opened]
    · rw [if_neg hw, if_neg hw]
      rfl
  · rw [activity?, hsite]
    split <;> rfl
  · obtain ⟨c, hc, hcl⟩ := communicator_of_end hl
    rw [communicator?, hsite] at hc
    split at hc
    · cases hc
      split at hcl
      · exact hlink (Rank.members size) b link hcl
      · exact hlink [.coordinator] b link hcl
    · cases hc

theorem starts_solitary (program : Rank → Program Action.interface α) :
    Starts 1 program (solitary program) := by
  have hsite : ∀ who, (solitary program).site? who = if who ∈ Rank.everybody 1 then
      some (Site.mk .alone (.running (program who))) else none := by
    intro who
    by_cases hw : who = .coordinator
    · subst hw
      rfl
    · have hne : (Rank.coordinator == who) = false := by simpa using fun h => hw h.symm
      have hm : who ∉ Rank.everybody 1 := by
        simpa [Rank.everybody, Rank.members, Rank.interval] using hw
      rw [if_neg hm]
      refine List.find?_eq_none.mpr fun site hs => ?_
      obtain rfl := List.mem_singleton.mp hs
      exact Bool.eq_false_iff.mp hne
  refine ⟨fun who => ?_, fun who => ?_, fun a b link hl => ?_⟩
  · rw [communicator?, hsite]
    split
    · rename_i hw
      have hc : who = .coordinator := by
        simpa [Rank.everybody, Rank.members, Rank.interval] using hw
      subst hc
      rfl
    · rfl
  · rw [activity?, hsite]
    split <;> rfl
  · obtain ⟨c, hc, hcl⟩ := communicator_of_end hl
    rw [communicator?, hsite] at hc
    split at hc
    · cases hc
      cases hcl
    · cases hc

theorem Bootstrapped.starts {size : UInt32} {program : Rank → Program Action.interface α}
    {net : Network α} (h : Bootstrapped size program net) : Starts size program net := by
  cases h with
  | formed => exact starts_formed size program
  | solitary single => exact single ▸ starts_solitary program

end Network
end FaultDrill
