import FaultDrill.Proofs.Calls
import FaultDrill.Proofs.Utf8
import FaultDrill.Proofs.Wire
set_option autoImplicit false

namespace FaultDrill
open Text

namespace Dialogue

def meeting : Dialogue := [⟨.spoke, .barrierEnter⟩, ⟨.hub, .barrierRelease⟩]

def line (text : String) : Turn := ⟨.spoke, .data Frame.textTag (Utf8.encode text)⟩

def opening (greeting : String) (payload : List UInt8) : Dialogue :=
  meeting ++ [line greeting] ++ meeting ++ [⟨.hub, .broadcast payload⟩]

end Dialogue

namespace Plan
open Dialogue

def Opens (plan : Plan) (greeting : Rank → String) (payload : List UInt8) (member : Rank) :
    Prop :=
  ∃ rest, plan.dialogue member = opening (greeting member) payload ++ rest

variable {plan : Plan} {who : Rank} {s : Situation} {k : Nat} {injected : List FaultCode}

section Member

variable (hm : who ∈ Rank.members plan.size) (hs : s.standing .coordinator = ⟨k, .engaged⟩)
include hm hs

theorem member_barrier (enter : (plan.dialogue who)[k]? = some ⟨.spoke, .barrierEnter⟩)
    (release : (plan.dialogue who)[k + 1]? = some ⟨.hub, .barrierRelease⟩) :
    plan.Goes who (fun s' result => (result = .ok () ∧ Reaches s s' (k + 2)) ∨
      (result = .error .coordinatorLost ∧ Bereft s s' k (k + 1))) s Schedule.barrier :=
  .barrier fun _ fits => spoke_barrier_keeps hm fits hs enter release

theorem member_line {text : String} (ht : (plan.dialogue who)[k]? = some (line text)) :
    plan.Goes who (fun s' result => (result = .ok () ∧ Reaches s s' (k + 1)) ∨
      (result = .error .coordinatorLost ∧ Bereft s s' k k) ∨
      (s' = s ∧ ∃ error, (line text).frame.packet = .error error ∧
        result = .error (.component error))) s (Schedule.send .coordinator text) :=
  .send fun _ fits => spoke_send_keeps hm fits hs ht

theorem member_value {β : Type} [Wire β] {payload : List UInt8} {value : β}
    (ht : (plan.dialogue who)[k]? = some ⟨.hub, .broadcast payload⟩)
    (decodes : Wire.decode payload = .ok value) :
    plan.Goes who (fun s' result => (result = .ok value ∧ Reaches s s' (k + 1)) ∨
      (result = .error .coordinatorLost ∧ Bereft s s' k k)) s
      (Schedule.broadcastValue (none : Option β)) := by
  refine .bind (.broadcast fun c fits => ((spoke_broadcast_keeps hm fits hs ht).mono ?_))
  rintro s' result (⟨rfl, h⟩ | ⟨rfl, h⟩)
  · simp only [Goes.After, decodes]
    exact .inl ⟨rfl, h⟩
  · exact .inr ⟨rfl, h⟩

omit hs in
theorem member_opens {β γ : Type} [Wire β] {greeting : Rank → String} {payload : List UInt8}
    {value : β} {next : β → Schedule γ} {post : Situation → Except GroupError γ → Prop}
    (opens : plan.Opens greeting payload who) (decodes : Wire.decode payload = .ok value)
    (onward : ∀ s', Reaches .start s' 6 → plan.Goes who post s' (next value))
    (bereft : ∀ s', Bereft .start s' 0 5 → post s' (.error .coordinatorLost))
    (oversized : ∀ s' error, (line (greeting who)).frame.packet = .error error →
      Reaches .start s' 2 → post s' (.error (.component error))) :
    plan.Goes who post .start (do
      Schedule.barrier
      Schedule.send .coordinator (greeting who)
      Schedule.barrier
      next (← Schedule.broadcastValue none)) := by
  obtain ⟨rest, hd⟩ := opens
  have early : ∀ {before s' : Situation} {first last : Nat}, before.injected = [] →
      Bereft before s' first last → last ≤ 5 → post s' (.error .coordinatorLost) :=
    fun fresh h hl => bereft _ ⟨h.injected.trans fresh, h.status, Nat.zero_le _,
      Nat.le_trans h.le_last hl⟩
  refine .bind ((member_barrier hm rfl (by rw [hd]; rfl) (by rw [hd]; rfl)).mono ?_)
  rintro s1 _ (⟨rfl, h1⟩ | ⟨rfl, h1⟩)
  · refine .bind ((member_line hm h1.standing (by rw [hd]; rfl)).mono ?_)
    rintro s2 _ (⟨rfl, h2⟩ | ⟨rfl, h2⟩ | ⟨rfl, error, large, rfl⟩)
    · have fresh2 : s2.injected = [] := h2.injected.trans h1.injected
      refine .bind ((member_barrier hm h2.standing (by rw [hd]; rfl) (by rw [hd]; rfl)).mono ?_)
      rintro s3 _ (⟨rfl, h3⟩ | ⟨rfl, h3⟩)
      · have fresh3 : s3.injected = [] := h3.injected.trans fresh2
        refine .bind ((member_value hm h3.standing (by rw [hd]; rfl) decodes).mono ?_)
        rintro s4 _ (⟨rfl, h4⟩ | ⟨rfl, h4⟩)
        · exact onward s4 ⟨h4.injected.trans fresh3, h4.standing⟩
        · exact early fresh3 h4 (by decide)
      · exact early fresh2 h3 (by decide)
    · exact early h1.injected h2 (by decide)
    · exact oversized _ error large h1
  · exact early rfl h1 (by decide)

end Member

section Coordinator

theorem hub_barrier (h : AllAt plan s k injected)
    (enter : ∀ m ∈ Rank.members plan.size,
      (plan.dialogue m)[k]? = some ⟨.spoke, .barrierEnter⟩)
    (release : ∀ m ∈ Rank.members plan.size,
      (plan.dialogue m)[k + 1]? = some ⟨.hub, .barrierRelease⟩) :
    plan.Goes .coordinator
      (fun s' result => result = .ok () ∧ AllAt plan s' (k + 2) injected) s Schedule.barrier :=
  .barrier fun _ fits => hub_barrier_keeps fits h enter release

theorem hub_value {β : Type} [Wire β] {told value : β} (h : AllAt plan s k injected)
    (next : ∀ m ∈ Rank.members plan.size,
      (plan.dialogue m)[k]? = some ⟨.hub, .broadcast (Wire.encode told)⟩)
    (small : ∀ error, (Frame.broadcast (Wire.encode told)).packet ≠ .error error)
    (decodes : Wire.decode (Wire.encode told) = .ok value) :
    plan.Goes .coordinator
      (fun s' result => result = .ok value ∧ AllAt plan s' (k + 1) injected) s
      (Schedule.broadcastValue (some told)) := by
  refine .bind (.broadcast fun c fits => ((hub_broadcast_keeps fits h next small).mono ?_))
  rintro s' result ⟨rfl, h'⟩
  simp only [Goes.After, decodes]
  exact ⟨rfl, h'⟩

variable {member : Rank} (hm : member ∈ Rank.members plan.size)
include hm

theorem hub_text {text : String} (hs : s.standing member = ⟨k, .engaged⟩)
    (ht : (plan.dialogue member)[k]? = some (line text)) :
    plan.Goes .coordinator (fun s' result => (result = .ok text ∧ s' = s.advance member) ∨
      (result = .error (.peerDeparted member) ∧ s' = s.lose member)) s
      (Schedule.receiveText member) := by
  refine .bind (.recv fun c fits => ((hub_recv_keeps fits hm hs ht).mono ?_))
  rintro s' result (⟨rfl, h⟩ | ⟨rfl, h⟩)
  · simp only [Goes.After, Utf8.decode_encode]
    exact .inl ⟨rfl, h⟩
  · exact .inr ⟨rfl, h⟩

theorem hub_text_lost (hs : (s.standing member).status = .lost) :
    plan.Goes .coordinator
      (fun s' result => result = .error (.peerDeparted member) ∧ s' = s) s
      (Schedule.receiveText member) := by
  refine .bind (.recv fun c fits => ((hub_recv_lost fits hm hs).mono ?_))
  rintro s' result ⟨rfl, h⟩
  exact ⟨rfl, h⟩

end Coordinator

/-- What hearing a line from each of these members comes to: all lines, or the first member that
is missing. -/
inductive Heard (lines : Rank → String) (s s' : Situation) (k : Nat) (ranks : List Rank) :
    Except GroupError (List String) → Prop where
  | all (injected : s'.injected = s.injected)
      (others : ∀ r, r ∉ ranks → s'.standing r = s.standing r)
      (these : ∀ r ∈ ranks, s'.standing r = ⟨k + 1, .engaged⟩) :
      Heard lines s s' k ranks (.ok (ranks.map lines))
  | missing {before after : List Rank} {r : Rank} (split : ranks = before ++ r :: after)
      (injected : s'.injected = s.injected)
      (others : ∀ r, r ∉ ranks → s'.standing r = s.standing r)
      (heard : ∀ m ∈ before, s'.standing m = ⟨k + 1, .engaged⟩)
      (lost : (s'.standing r).status = .lost) (turn : (s'.standing r).turn ≤ k)
      (early : ∀ m ∈ ranks, (s'.standing m).turn ≤ k + 1) :
      Heard lines s s' k ranks (.error (.peerDeparted r))

theorem Heard.cons {lines : Rank → String} {middle s' : Situation} {r : Rank}
    {ranks : List Rank} {result : Except GroupError (List String)} (fresh : r ∉ ranks)
    (first : Passes s middle k [r]) (here : middle.standing r = ⟨k + 1, .engaged⟩)
    (rest : Heard lines middle s' k ranks result) :
    Heard lines s s' k (r :: ranks) (result.map (lines r :: ·)) := by
  have hothers : (∀ m, m ∉ ranks → s'.standing m = middle.standing m) →
      ∀ m, m ∉ r :: ranks → s'.standing m = s.standing m := by
    intro others m hm
    rw [others m fun h => hm (List.mem_cons_of_mem _ h)]
    exact first.others m fun h => hm (List.mem_singleton.mp h ▸ List.mem_cons_self)
  cases rest with
  | all injected others these =>
    refine .all (injected.trans first.injected) (hothers others) fun m hm => ?_
    rcases List.mem_cons.mp hm with rfl | hm
    · exact (others m fresh).trans here
    · exact these m hm
  | @missing before after r' split injected others heard lost turn early =>
    have split' : r :: ranks = (r :: before) ++ r' :: after := congrArg (r :: ·) split
    refine .missing split' (injected.trans first.injected) (hothers others) (fun m hm => ?_) lost
      turn fun m hm => ?_
    · rcases List.mem_cons.mp hm with rfl | hm
      · exact (others m fresh).trans here
      · exact heard m hm
    · rcases List.mem_cons.mp hm with rfl | hm
      · exact Nat.le_of_eq (congrArg Standing.turn ((others m fresh).trans here))
      · exact early m hm

/-- The members stand at the turn at which the coordinator hears this line of theirs, or were
found gone before. -/
def Speak (plan : Plan) (lines : Rank → String) (s : Situation) (k : Nat) (ranks : List Rank) :
    Prop :=
  ∀ m ∈ ranks, m ∈ Rank.members plan.size ∧ (plan.dialogue m)[k]? = some (line (lines m)) ∧
    (s.standing m = ⟨k, .engaged⟩ ∨ ((s.standing m).status = .lost ∧ (s.standing m).turn < k))

theorem Speak.early {lines : Rank → String} {ranks : List Rank} (h : Speak plan lines s k ranks) :
    ∀ m ∈ ranks, (s.standing m).turn ≤ k := by
  intro m hm
  obtain ⟨-, -, hs | ⟨-, hlt⟩⟩ := h m hm
  · exact Nat.le_of_eq (congrArg Standing.turn hs)
  · exact Nat.le_of_lt hlt

theorem hearFrom_goes (lines : Rank → String) {first count : Nat}
    (nodup : (Rank.interval first count).Nodup)
    (speak : Speak plan lines s k (Rank.interval first count)) :
    plan.Goes .coordinator (fun s' result =>
      Heard lines s s' k (Rank.interval first count) result) s
      (Schedule.hearFrom first count) := by
  induction count generalizing first s with
  | zero => exact .all rfl (fun _ _ => rfl) (by simp [Rank.interval])
  | succ count ih =>
    obtain ⟨fresh, nodup⟩ := List.nodup_cons.mp nodup
    obtain ⟨hm, ht, hs | ⟨hs, hlt⟩⟩ := speak _ List.mem_cons_self
    · refine .bind ((hub_text hm hs ht).mono ?_)
      rintro middle _ (⟨rfl, rfl⟩ | ⟨rfl, rfl⟩)
      · have passes := passes_advance hs
        have speak' : Speak plan lines (s.advance ⟨UInt32.ofNat first⟩) k
            (Rank.interval (first + 1) count) := by
          intro m hmem
          have hne : m ≠ ⟨UInt32.ofNat first⟩ := fun he => fresh (he ▸ hmem)
          rw [passes.others m fun h => hne (List.mem_singleton.mp h)]
          exact speak m (List.mem_cons_of_mem _ hmem)
        have here : (s.advance ⟨UInt32.ofNat first⟩).standing ⟨UInt32.ofNat first⟩ =
            ⟨k + 1, .engaged⟩ := by
          rw [Situation.advance, Situation.change_same, hs]
          rfl
        refine .bind (.print _ (.bind ((ih nodup speak').mono fun s' result rest => ?_)))
        have hcons := rest.cons fresh passes here
        cases result with
        | ok heard => exact hcons
        | error error => exact hcons
      · have passes := passes_lose hs
        have hl : (s.lose ⟨UInt32.ofNat first⟩).standing ⟨UInt32.ofNat first⟩ = ⟨k, .lost⟩ := by
          rw [Situation.lose, Situation.change_same, hs]
          rfl
        refine .missing (List.nil_append _).symm rfl (fun m hmem => ?_) (by simp) ?_ ?_
          fun m hmem => ?_
        · exact passes.others m fun h =>
            hmem (List.mem_singleton.mp h ▸ List.mem_cons_self)
        · rw [hl]
        · exact Nat.le_of_eq (by rw [hl])
        · rw [Situation.lose_turn]
          exact Nat.le_succ_of_le (speak.early m hmem)
    · refine .bind ((hub_text_lost hm hs).mono ?_)
      rintro s' _ ⟨rfl, rfl⟩
      exact .missing (List.nil_append _).symm rfl (fun _ _ => rfl) (by simp) hs (Nat.le_of_lt hlt)
        fun m hmem => Nat.le_succ_of_le (speak.early m hmem)

theorem AllAt.speak (lines : Rank → String) (h : AllAt plan s k injected)
    (next : ∀ m ∈ Rank.members plan.size, (plan.dialogue m)[k]? = some (line (lines m))) :
    Speak plan lines s k (Rank.members plan.size) :=
  fun m hm => ⟨hm, next m hm, h.members m hm⟩

inductive Greeted (plan : Plan) (greeting : Rank → String) (s : Situation) (k : Nat)
    (injected : List FaultCode) : Except GroupError (List String) → Prop
  | all (same : s.injected = injected)
      (members : ∀ m ∈ Rank.members plan.size, s.standing m = ⟨k + 1, .engaged⟩) :
      Greeted plan greeting s k injected (.ok ((Rank.everybody plan.size).map greeting))
  | missing {before after : List Rank} {r : Rank}
      (split : Rank.members plan.size = before ++ r :: after)
      (heard : ∀ m ∈ before, s.standing m = ⟨k + 1, .engaged⟩)
      (lost : (s.standing r).status = .lost) (turn : (s.standing r).turn ≤ k)
      (early : ∀ m ∈ Rank.members plan.size, (s.standing m).turn ≤ k + 1) :
      Greeted plan greeting s k injected (.error (.peerDeparted r))

theorem hub_greetings (greeting : Rank → String) (h : AllAt plan s k injected)
    (next : ∀ m ∈ Rank.members plan.size, (plan.dialogue m)[k]? = some (line (greeting m))) :
    plan.Goes .coordinator (fun s' result => Greeted plan greeting s' k injected result) s
      (Schedule.exchangeGreetings ⟨.coordinator, plan.size, greeting .coordinator⟩) := by
  refine .bind (.print _ (.bind ((hearFrom_goes greeting (Rank.nodup_members plan.size)
    (h.speak greeting next)).mono ?_)))
  intro s' result heard
  cases heard with
  | all injected others these => exact .all (injected.trans h.injected) these
  | missing split injected others heard lost turn early =>
    exact .missing split heard lost turn early

/-- The coordinator's opening up to the greetings, all of which it has then heard, and what it goes
on with. -/
theorem hub_hears {γ : Type} {greeting : Rank → String} {payload : List UInt8}
    {next : List String → Schedule γ} {post : Situation → Except GroupError γ → Prop}
    (opens : ∀ m ∈ Rank.members plan.size, plan.Opens greeting payload m)
    (onward : ∀ s', s'.injected = [] →
      (∀ m ∈ Rank.members plan.size, s'.standing m = ⟨3, .engaged⟩) →
      plan.Goes .coordinator post s' (next ((Rank.everybody plan.size).map greeting)))
    (departed : ∀ s' before r after, Rank.members plan.size = before ++ r :: after →
      (∀ m ∈ before, s'.standing m = ⟨3, .engaged⟩) → (s'.standing r).status = .lost →
      (s'.standing r).turn ≤ 2 → (∀ m ∈ Rank.members plan.size, (s'.standing m).turn ≤ 3) →
      post s' (.error (.peerDeparted r))) :
    plan.Goes .coordinator post .start (do
      Schedule.barrier
      next (← Schedule.exchangeGreetings ⟨.coordinator, plan.size, greeting .coordinator⟩)) := by
  have h0 : AllAt plan .start 0 [] := ⟨rfl, fun _ _ => .inl rfl⟩
  have turn : ∀ {k : Nat} {turn : Turn},
      (∀ text rest, (opening text payload ++ rest)[k]? = some turn) →
      ∀ m ∈ Rank.members plan.size, (plan.dialogue m)[k]? = some turn := by
    intro k turn ht m hm
    obtain ⟨rest, hd⟩ := opens m hm
    rw [hd]
    exact ht _ rest
  refine .bind ((hub_barrier h0 (turn fun _ _ => rfl) (turn fun _ _ => rfl)).mono ?_)
  rintro s1 _ ⟨rfl, h1⟩
  refine .bind ((hub_greetings greeting h1 fun m hm => ?_).mono fun s2 result greeted => ?_)
  · obtain ⟨rest, hd⟩ := opens m hm
    rw [hd]
    rfl
  · cases greeted with
    | all same members => exact onward s2 same members
    | missing split heard lost turn early =>
      exact departed s2 _ _ _ split heard lost turn early

theorem hub_opens {γ : Type} {greeting : Rank → String} {payload : List UInt8}
    {next : List String → Schedule γ} {post : Situation → Except GroupError γ → Prop}
    (opens : ∀ m ∈ Rank.members plan.size, plan.Opens greeting payload m)
    (onward : ∀ s', AllAt plan s' 3 [] →
      plan.Goes .coordinator post s' (next ((Rank.everybody plan.size).map greeting)))
    (departed : ∀ s' before r after, Rank.members plan.size = before ++ r :: after →
      (∀ m ∈ before, s'.standing m = ⟨3, .engaged⟩) → (s'.standing r).status = .lost →
      (s'.standing r).turn ≤ 2 → (∀ m ∈ Rank.members plan.size, (s'.standing m).turn ≤ 3) →
      post s' (.error (.peerDeparted r))) :
    plan.Goes .coordinator post .start (do
      Schedule.barrier
      next (← Schedule.exchangeGreetings ⟨.coordinator, plan.size, greeting .coordinator⟩)) :=
  hub_hears opens (fun s' fresh members => onward s' ⟨fresh, fun m hm => .inl (members m hm)⟩)
    departed

end Plan
end FaultDrill
