import FaultDrill.Proofs.Opening
import FaultDrill.Proofs.Packet
set_option autoImplicit false

namespace FaultDrill

theorem Wire.decode_encode_seconds (seconds : UInt64) :
    Wire.decode (Wire.encode seconds) = .ok seconds :=
  (Wire.reads_uint64 seconds).decode_eq

namespace Plan
open Dialogue

/-- What a group does in which the coordinator has this duration to tell. -/
def plain (size : UInt32) (greeting : Rank → String) (seconds : UInt64) : Plan where
  size := size
  dialogue m := opening (greeting m) (Wire.encode seconds)
  strikes _ _ := False

variable {size : UInt32} {greeting : Rank → String} {seconds : UInt64} {who : Rank}
  {s : Situation} {requested : Option UInt64}

inductive PlainMemberEnds (who : Rank) (greeting : String) (seconds : UInt64) (s : Situation) :
    Except GroupError SleepReport → Prop
  | completed (standing : s.standing .coordinator = ⟨6, .shut⟩) :
      PlainMemberEnds who greeting seconds s (.ok ⟨who, seconds, []⟩)
  | bereft (lost : (s.standing .coordinator).status = .lost)
      (last : (s.standing .coordinator).turn ≤ 5) :
      PlainMemberEnds who greeting seconds s (.error .coordinatorLost)
  | oversized {error : ComponentError} (large : (line greeting).frame.packet = .error error)
      (standing : s.standing .coordinator = ⟨2, .engaged⟩) :
      PlainMemberEnds who greeting seconds s (.error (.component error))

theorem plain_member_goes (hm : who ∈ Rank.members (plain size greeting seconds).size) :
    (plain size greeting seconds).Goes who (PlainMemberEnds who (greeting who) seconds) .start
      (Schedule.plain ⟨who, size, greeting who⟩ requested) := by
  have hc := Rank.isCoordinator_member hm
  have hopening : Schedule.plain ⟨who, size, greeting who⟩ requested = (do
      Schedule.barrier
      Schedule.send .coordinator (greeting who)
      Schedule.barrier
      let seconds ← Schedule.broadcastValue none
      Schedule.sleep seconds
      Schedule.finalize
      return ⟨who, seconds, []⟩) := by
    simp [Schedule.plain, Schedule.exchangeGreetings, Schedule.agreeOnSleep, hc]
  rw [hopening]
  refine member_opens hm ⟨[], (List.append_nil _).symm⟩ (Wire.decode_encode_seconds seconds)
    (fun s' reached => ?_) (fun s' h => .bereft h.status h.le_last)
    fun s' error large reached => .oversized large reached.standing
  refine .bind (.sleep _ (.bind (.finalize fun c fits => (finalize_keeps fun peer hp _ => ?_).mono
    ?_)))
  · have hpeers : who.peers (plain size greeting seconds).size = [.coordinator] :=
      Rank.peers_member hm
    rw [hpeers] at hp
    obtain rfl := List.mem_singleton.mp hp
    rw [reached.standing, between_member hm]
    rfl
  · rintro s'' _ ⟨rfl, rfl⟩
    refine .pure (.completed ?_)
    change (s'.standing .coordinator).close = _
    rw [reached.standing]
    rfl

inductive PlainCoordinatorEnds (size : UInt32) (greeting : Rank → String) (seconds : UInt64)
    (s : Situation) : Except GroupError SleepReport → Prop
  | completed (members : ∀ m ∈ Rank.members size, s.standing m = ⟨6, .shut⟩ ∨
        ((s.standing m).status = .lost ∧ (s.standing m).turn < 6))
      (heard : ∀ m ∈ Rank.members size, 3 ≤ (s.standing m).turn) :
      PlainCoordinatorEnds size greeting seconds s
        (.ok ⟨.coordinator, seconds, (Rank.everybody size).map greeting⟩)
  | departed {before after : List Rank} {r : Rank}
      (split : Rank.members size = before ++ r :: after)
      (heard : ∀ m ∈ before, s.standing m = ⟨3, .engaged⟩) (lost : (s.standing r).status = .lost)
      (turn : (s.standing r).turn ≤ 2) :
      PlainCoordinatorEnds size greeting seconds s (.error (.peerDeparted r))

theorem plain_coordinator_goes (agreed : requested.getD 0 = seconds) :
    (plain size greeting seconds).Goes .coordinator (PlainCoordinatorEnds size greeting seconds)
      .start (Schedule.plain ⟨.coordinator, size, greeting .coordinator⟩ requested) := by
  subst agreed
  have small : ∀ error,
      (Frame.broadcast (Wire.encode (requested.getD 0))).packet ≠ .error error := by
    refine fun error => Frame.packet_ne_error ?_ error
    have hlength : (Wire.encode (requested.getD 0)).length = 8 := Wire.length_littleEndian 8 _
    rw [Frame.length_encode_broadcast, hlength]
    decide
  refine hub_hears (fun m _ => ⟨[], (List.append_nil _).symm⟩) (fun s fresh greeted => ?_)
    fun s before r after split heard lost turn _ => .departed split heard lost turn
  have h : AllAt (plain size greeting (requested.getD 0)) s 3 [] :=
    ⟨fresh, fun m hm => .inl (greeted m hm)⟩
  refine .bind (.print _ (.bind
    ((Fulfils.rising (hub_barrier h (fun _ _ => rfl) fun _ _ => rfl)).mono ?_)))
  rintro s3 _ ⟨⟨rfl, h3⟩, rising3⟩
  refine .bind (.bind (.print _ (.bind (.print _ (.bind
    ((Fulfils.rising (hub_value h3 (fun _ _ => rfl) small (Wire.decode_encode_seconds _))).mono
      ?_))))))
  rintro s4 _ ⟨⟨rfl, h4⟩, rising4⟩
  refine .bind (.print _ (.pure (.bind (.sleep _ (.bind (.finalize fun c fits =>
    (finalize_keeps fun peer hp engaged => ?_).mono ?_))))))
  · rcases h4.members peer hp with hs | ⟨lost, -⟩
    · rw [hs]
      rfl
    · rw [lost] at engaged
      cases engaged
  · rintro s' _ ⟨rfl, rfl⟩
    refine .pure (.completed (fun m hm => ?_) fun m hm => ?_)
    · rcases h4.members m hm with hs | ⟨lost, turn⟩
      · left
        change (s4.standing m).close = _
        rw [hs]
        rfl
      · exact .inr ⟨Standing.close_lost lost, turn⟩
    · have heard : (s.standing m).turn = 3 := congrArg Standing.turn (greeted m hm)
      exact heard ▸ (rising3.trans rising4) m

end Plan
end FaultDrill
