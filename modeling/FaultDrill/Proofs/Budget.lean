import FaultDrill.Schedule
import FaultDrill.Proofs.Moved
set_option autoImplicit false

namespace FaultDrill

namespace Program

variable {I : Interface} {α β : Type} {n m : Nat}

/-- Whatever it is answered, the program asks at most this many times. -/
def Within : Program I α → Nat → Prop
  | done _, _ => True
  | ask _ _, 0 => False
  | ask _ next, n + 1 => ∀ answer, (next answer).Within n

namespace Within

theorem mono {p : Program I α} (h : p.Within n) (hle : n ≤ m) : p.Within m := by
  induction p generalizing n m with
  | done result => trivial
  | ask request next ih =>
    cases n with
    | zero => exact h.elim
    | succ n =>
      obtain ⟨k, rfl⟩ := Nat.exists_eq_add_of_le hle
      rw [Nat.succ_add]
      exact fun answer => ih answer (h answer) (Nat.le_add_right n k)

theorem bind {p : Program I α} {after : α → Program I β} (h : p.Within n)
    (h' : ∀ result, (after result).Within m) : (p >>= after).Within (n + m) := by
  change (p.andThen after).Within (n + m)
  induction p generalizing n with
  | done result => exact (h' result).mono (Nat.le_add_left m n)
  | ask request next ih =>
    cases n with
    | zero => exact h.elim
    | succ n =>
      rw [Nat.succ_add]
      exact fun answer => ih answer (h answer)

theorem pure (result : α) (n : Nat) : (Pure.pure result : Program I α).Within n := trivial

theorem perform {request : I.Request} {after : I.Answer request → Program I β}
    (h : ∀ answer, (after answer).Within n) :
    (Program.perform request >>= after).Within (n + 1) := h

end Within
end Program

namespace Communicator

theorem collect_within {α : Type} {n : Nat} (me : Rank) (peers : List Rank)
    {after : Except GroupError (List Rank) → Conduct α}
    (failed : ∀ e, (after (.error e)).Within n)
    (there : ∀ present, present.length ≤ peers.length → (after (.ok present)).Within n) :
    (collect me peers >>= after).Within (2 * peers.length + n) := by
  induction peers generalizing after with
  | nil => exact (there [] (Nat.le_refl 0)).mono (Nat.le_add_left n 0)
  | cons peer rest ih =>
    have hlength : 2 * (peer :: rest).length + n = 2 * rest.length + n + 1 + 1 := by
      rw [List.length_cons]
      omega
    have hrest : (collect me rest >>= after).Within (2 * rest.length + n) :=
      ih failed fun present hle => there present (Nat.le_succ_of_le hle)
    rw [hlength, collect, bind_assoc]
    refine .perform fun taken => ?_
    cases taken with
    | failed error => exact (failed _).mono (by omega)
    | gone =>
      rw [bind_assoc]
      exact .perform fun _ => hrest
    | frame frame =>
      have hkept : (collect me rest >>= fun present =>
          after (present.map (peer :: ·))).Within (2 * rest.length + n) :=
        ih failed fun present hle => there (peer :: present) (Nat.succ_le_succ hle)
      simp only [bind_assoc, pure_bind]
      exact hkept.mono (Nat.le_succ _)

theorem sendAll_within (me : Rank) (frame : Frame) (occasion : String) (peers : List Rank) :
    (sendAll me frame occasion peers).Within (2 * peers.length) := by
  induction peers with
  | nil => exact .pure _ 0
  | cons peer rest ih =>
    refine .perform fun sent => ?_
    cases sent with
    | failed error => exact .pure _ _
    | gone => exact .perform fun _ => ih
    | delivered => exact ih.mono (Nat.le_succ _)

theorem deliver_within (peer : Rank) (frame : Frame) (lost : GroupError) :
    (deliver peer frame lost).Within 1 := by
  refine .perform fun sent => ?_
  cases sent <;> exact .pure _ 0

theorem await_within (peer : Rank) (wanted : Wanted) (lost : GroupError) :
    (await peer wanted lost).Within 1 := by
  refine .perform fun taken => ?_
  cases taken <;> exact .pure _ 0

theorem awaitPayload_within (peer : Rank) (wanted : Wanted) (lost : GroupError) :
    (awaitPayload peer wanted lost).Within 1 :=
  .bind (await_within peer wanted lost) fun _ => .pure _ 0

theorem hubBarrier_within (me : Rank) (peers : List Rank) :
    (hubBarrier me peers).Within (2 * peers.length + 2 * peers.length) :=
  collect_within me peers (fun _ => .pure _ _) fun present hle =>
    (sendAll_within me .barrierRelease _ present).mono (Nat.mul_le_mul_left 2 hle)

theorem hubBroadcast_within (me : Rank) (payload : List UInt8) (peers : List Rank) :
    (hubBroadcast me payload peers).Within (2 * peers.length) :=
  (Program.Within.bind (sendAll_within me (.broadcast payload) _ peers) fun _ => .pure _ 0)

theorem spokeBarrier_within : spokeBarrier.Within 2 := by
  have henter := deliver_within .coordinator .barrierEnter .coordinatorLost
  have hrelease := await_within .coordinator .barrierRelease .coordinatorLost
  refine Program.Within.bind (m := 1) henter fun entered => ?_
  cases entered with
  | error error => exact .pure _ 1
  | ok => exact .bind hrelease fun _ => .pure _ 0

/-- A call takes at most four exchanges for each connection, and two more. -/
theorem conduct_within (c : Communicator) (call : Call) :
    (c.conduct call).Within (4 * c.topology.peers.length + 2) := by
  have hlive : c.topology.livePeers.length ≤ c.topology.peers.length :=
    c.topology.livePeers_sublist.length_le
  cases call with
  | barrier =>
    have hbarrier := hubBarrier_within c.rank c.topology.livePeers
    unfold conduct barrier
    cases ht : c.topology with
    | alone => exact .pure _ _
    | hub links =>
      rw [ht] at hbarrier hlive
      exact hbarrier.mono (by omega)
    | spoke link => exact spokeBarrier_within.mono (Nat.le_add_left 2 _)
  | broadcast root payload =>
    have htell := fun bytes => hubBroadcast_within c.rank bytes c.topology.livePeers
    unfold conduct broadcast
    dsimp only
    split
    · exact .pure _ _
    · split
      · exact (awaitPayload_within _ _ _).mono (by omega)
      · split
        · exact .pure _ _
        · exact (htell _).mono (by omega)
  | send target tag payload =>
    unfold conduct send
    dsimp only
    split
    · exact .pure _ _
    · exact (deliver_within _ _ _).mono (by omega)
  | recv source tag =>
    unfold conduct recv
    dsimp only
    split
    · exact .pure _ _
    · exact (awaitPayload_within _ _ _).mono (by omega)
  | departed => exact .pure _ _
  | finalize =>
    have hclose : c.finalize.Within 2 := .perform fun _ => .perform fun _ => .pure _ 0
    exact hclose.mono (Nat.le_add_left 2 _)

end Communicator

namespace Schedule

variable {α β : Type} {n m : Nat}

/-- However its calls are answered, a stretch acts at most this many times. -/
def Within (stretch : Schedule α) (n : Nat) : Prop := Program.Within stretch.run n

theorem Within.mono {stretch : Schedule α} (h : stretch.Within n) (hle : n ≤ m) :
    stretch.Within m :=
  Program.Within.mono h hle

theorem Within.pure (result : α) (n : Nat) : Within (Pure.pure result) n := trivial

theorem Within.throw (error : GroupError) (n : Nat) :
    Within (MonadExcept.throw error : Schedule α) n := trivial

theorem Within.bind {stretch : Schedule α} {next : α → Schedule β} (h : stretch.Within n)
    (h' : ∀ result, (next result).Within m) : (stretch >>= next).Within (n + m) := by
  refine Program.Within.bind h fun result => ?_
  cases result with
  | ok result => exact h' result
  | error error => exact .pure _ m

theorem Within.spend {stretch : Schedule α} {next : α → Schedule β} (h : stretch.Within n)
    (hle : n ≤ m) (h' : ∀ result, (next result).Within (m - n)) :
    (stretch >>= next).Within m := by
  obtain ⟨k, rfl⟩ := Nat.exists_eq_add_of_le hle
  rw [Nat.add_sub_cancel_left] at h'
  exact h.bind h'

theorem act_within (action : Action) : (act action).Within 1 := fun _ => trivial

theorem demand_within (answer : Except GroupError α) (n : Nat) : (demand answer).Within n :=
  trivial

theorem attempt_within {stretch : Schedule α} (h : stretch.Within n) :
    (attempt stretch).Within n :=
  Program.Within.bind h fun _ => .pure _ 0

theorem barrier_within : barrier.Within 1 := (act_within _).bind fun _ => demand_within _ 0

theorem broadcast_within (payload : Option (List UInt8)) : (broadcast payload).Within 1 :=
  (act_within _).bind fun _ => demand_within _ 0

theorem send_within (target : Rank) (line : String) : (send target line).Within 1 :=
  (act_within _).bind fun _ => demand_within _ 0

theorem recv_within (source : Rank) : (recv source).Within 1 :=
  (act_within _).bind fun _ => demand_within _ 0

theorem finalize_within : finalize.Within 1 := (act_within _).bind fun _ => demand_within _ 0

theorem receiveText_within (source : Rank) : (receiveText source).Within 1 := by
  refine .spend (recv_within source) (by decide) fun payload => ?_
  cases Text.Utf8.decode payload with
  | ok line => exact .pure _ 0
  | error fault => exact .throw _ 0

theorem broadcastValue_within [Wire α] (value : Option α) : (broadcastValue value).Within 1 := by
  refine .spend (broadcast_within _) (by decide) fun payload => ?_
  cases (Wire.decode payload : Except DecodeFault α) with
  | ok received => exact .pure _ 0
  | error fault => exact .throw _ 0

theorem hearFrom_within (first count : Nat) : (hearFrom first count).Within (2 * count) := by
  induction count generalizing first with
  | zero => exact .pure _ 0
  | succ count ih =>
    refine .spend (receiveText_within _) (by omega) fun line => ?_
    refine .spend (act_within _) (by omega) fun _ => ?_
    exact .spend (ih _) (by omega) fun _ => .pure _ _

theorem exchangeGreetings_within (seat : Seat) :
    (exchangeGreetings seat).Within (2 * seat.size.toNat + 1) := by
  unfold exchangeGreetings
  split
  · refine .spend (act_within _) (by omega) fun _ => ?_
    exact .spend (hearFrom_within _ _) (by omega) fun _ => .pure _ _
  · exact .spend (send_within _ _) (by omega) fun _ => .pure _ _

theorem agreeOnSleep_within (seat : Seat) (requested : Option UInt64) :
    (agreeOnSleep seat requested).Within 4 := by
  unfold agreeOnSleep
  split
  · refine .spend (act_within _) (by decide) fun _ => .spend (act_within _) (by decide) fun _ => ?_
    refine .spend (broadcastValue_within _) (by decide) fun _ => ?_
    exact .spend (act_within _) (by decide) fun _ => .pure _ _
  · exact (broadcastValue_within _).mono (by decide)

theorem agreeOnRun_within (seat : Seat) (choice : Except ComponentError RunParameters) :
    (agreeOnRun seat choice).Within 2 := by
  unfold agreeOnRun
  split
  · refine .spend (demand_within _ 0) (by decide) fun _ => ?_
    refine .spend (act_within _) (by decide) fun _ => ?_
    exact (broadcastValue_within _).mono (by decide)
  · exact (broadcastValue_within _).mono (by decide)

theorem strike_within (rank : Rank) (parameters : RunParameters) :
    (strike rank parameters).Within 2 := by
  unfold strike
  split
  · exact .spend (act_within _) (by decide) fun _ => act_within _
  · exact .pure _ _

theorem farewellsFrom_within (observer : Rank) (parameters : RunParameters)
    (departed : List Rank) (first count : Nat) :
    (farewellsFrom observer parameters departed first count).Within (2 * count) := by
  induction count generalizing first with
  | zero => exact .pure _ 0
  | succ count ih =>
    unfold farewellsFrom
    dsimp only
    split
    · exact .spend (act_within _) (by omega) fun _ => (ih _).mono (by omega)
    · refine .spend (attempt_within (receiveText_within _)) (by omega) fun heard => ?_
      split
      · refine .spend (act_within _) (by omega) fun _ => ?_
        exact .spend (ih _) (by omega) fun _ => .pure _ _
      · split
        · exact .spend (act_within _) (by omega) fun _ => (ih _).mono (by omega)
        · exact .throw _ _
      · exact .throw _ _

theorem exchangeFarewells_within (seat : Seat) (parameters : RunParameters) :
    (exchangeFarewells seat parameters).Within (2 * seat.size.toNat + 2) := by
  unfold exchangeFarewells collectFarewells
  split
  · refine .spend (act_within _) (by omega) fun _ => ?_
    split
    · exact .throw _ _
    · refine .spend (act_within _) (by omega) fun _ => ?_
      exact .spend (farewellsFrom_within _ _ _ _ _) (by omega) fun _ => .pure _ _
  · exact .spend (send_within _ _) (by omega) fun _ => .pure _ _

theorem close_within (seat : Seat) (report : RunReport) :
    (close seat report).Within (2 * seat.size.toNat + 5) := by
  refine .spend (attempt_within barrier_within) (by omega) fun met => ?_
  split
  · refine .spend (exchangeFarewells_within _ _) (by omega) fun _ => ?_
    refine .spend finalize_within (by omega) fun _ => ?_
    exact .spend (act_within _) (by omega) fun _ => .pure _ _
  · split
    · exact .spend (act_within _) (by omega) fun _ => .pure _ _
    · exact .throw _ _

theorem faulty_within (seat : Seat) (choice : Except ComponentError RunParameters) :
    (faulty seat choice).Within (4 * seat.size.toNat + 15) := by
  refine .spend barrier_within (by omega) fun _ => ?_
  refine .spend (exchangeGreetings_within _) (by omega) fun _ => ?_
  refine .spend barrier_within (by omega) fun _ => ?_
  refine .spend (agreeOnRun_within _ _) (by omega) fun _ => ?_
  refine .spend (act_within _) (by omega) fun _ => .spend (act_within _) (by omega) fun _ => ?_
  refine .spend (strike_within _ _) (by omega) fun _ => ?_
  split
  · exact .pure _ _
  · exact .spend (act_within _) (by omega) fun _ => (close_within _ _).mono (by omega)

theorem plain_within (seat : Seat) (requested : Option UInt64) :
    (plain seat requested).Within (2 * seat.size.toNat + 10) := by
  refine .spend barrier_within (by omega) fun _ => ?_
  refine .spend (exchangeGreetings_within _) (by omega) fun greetings => ?_
  have hrest : Within (do
      barrier
      let seconds ← agreeOnSleep seat requested
      sleep seconds
      finalize
      return (⟨seat.rank, seconds, greetings⟩ : SleepReport)) 7 := by
    refine .spend barrier_within (by decide) fun _ => ?_
    refine .spend (agreeOnSleep_within _ _) (by decide) fun _ => ?_
    refine .spend (act_within _) (by decide) fun _ => ?_
    exact .spend finalize_within (by decide) fun _ => .pure _ _
  dsimp only
  split
  · exact .spend (act_within _) (by omega) fun _ => hrest.mono (by omega)
  · exact hrest.mono (by omega)

end Schedule
end FaultDrill
