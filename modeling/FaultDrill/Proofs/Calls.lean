import FaultDrill.Proofs.Plan
set_option autoImplicit false

namespace FaultDrill

namespace Plan

variable {plan : Plan} {who peer : Rank} {s : Situation} {c : Communicator}

namespace Fits

theorem peers (fits : plan.Fits who s c) : c.topology.peers = who.peers plan.size :=
  congrArg (fun shape => shape.2.2.1) fits.shape

theorem isSpoke (fits : plan.Fits who s c) : c.topology.isSpoke = !who.isCoordinator :=
  congrArg (fun shape => shape.2.2.2) fits.shape

theorem link (fits : plan.Fits who s c) (hp : peer ∈ who.peers plan.size) :
    ∃ link, c.topology.link? peer = some link ∧ link.live = s.engaged peer := by
  rw [← fits.peers, ← Topology.link_isSome, Option.isSome_iff_exists] at hp
  obtain ⟨link, hl⟩ := hp
  refine ⟨link, hl, Bool.eq_iff_iff.mpr ?_⟩
  rw [Situation.engaged_iff]
  exact fits.live peer link hl

theorem livePeers (fits : plan.Fits who s c) :
    c.topology.livePeers = (who.peers plan.size).filter s.engaged := by
  have nodup : c.topology.peers.Nodup := fits.peers ▸ Rank.nodup_peers _ _
  unfold Topology.livePeers
  rw [Topology.filter_peers nodup, fits.peers]
  refine List.filter_congr fun peer hp => ?_
  obtain ⟨link, hl, live⟩ := fits.link hp
  rw [hl, Option.any_some, live]

theorem departedPeers (fits : plan.Fits who s c) :
    c.topology.departedPeers = (who.peers plan.size).filter fun peer => !s.engaged peer := by
  have nodup : c.topology.peers.Nodup := fits.peers ▸ Rank.nodup_peers _ _
  unfold Topology.departedPeers
  rw [Topology.filter_peers nodup, fits.peers]
  refine List.filter_congr fun peer hp => ?_
  obtain ⟨link, hl, live⟩ := fits.link hp
  rw [hl, Option.any_some, live]

end Fits

theorem note_keeps {severity : Severity} {me : Rank} {message : String}
    {post : Situation → Unit → Prop} (h : post s ()) :
    (Communicator.note severity me message).Keeps (plan.contract who) post s := by
  refine .perform trivial fun answer s' hf => ?_
  obtain rfl : s' = s := hf
  exact h

section Single

variable {k : Nat} {frame : Frame} {wanted : Wanted}

theorem send_keeps {post : Situation → Sent → Prop} (hp : peer ∈ who.peers plan.size)
    (hs : s.standing peer = ⟨k, .engaged⟩)
    (ht : (plan.between who peer)[k]? = some ⟨side who, frame⟩)
    (delivered : post (s.advance peer) .delivered) (gone : post (s.lose peer) .gone)
    (failed : ∀ error, frame.packet = .error error → post s (.failed error)) :
    (Communicator.sendTo peer frame).Keeps (plan.contract who) post s := by
  refine .perform ⟨hp, .inr (by rw [hs]; exact ⟨rfl, ht⟩)⟩ fun answer s' hf => ?_
  cases answer with
  | delivered =>
    obtain ⟨-, rfl⟩ := hf
    exact delivered
  | gone =>
    obtain rfl : s' = _ := hf
    exact gone
  | failed error =>
    obtain ⟨hf, rfl⟩ := hf
    exact failed error hf

theorem take_keeps {post : Situation → Taken → Prop} (hp : peer ∈ who.peers plan.size)
    (hs : s.standing peer = ⟨k, .engaged⟩)
    (ht : (plan.between who peer)[k]? = some ⟨(side who).other, frame⟩)
    (accepted : wanted.accepts frame = true)
    (taken : post (s.advance peer) (.frame frame)) (gone : post (s.lose peer) .gone) :
    (Communicator.takeFrom peer wanted).Keeps (plan.contract who) post s := by
  refine .perform ⟨hp, .inr (by rw [hs]; exact ⟨rfl, frame, accepted, ht⟩)⟩ fun answer s' hf => ?_
  cases answer with
  | frame frame' =>
    obtain ⟨-, hf, rfl⟩ := hf
    rw [hs] at hf
    obtain rfl : frame = frame' := congrArg Turn.frame (Option.some.inj (ht.symm.trans hf))
    exact taken
  | gone =>
    obtain rfl : s' = _ := hf
    exact gone
  | failed error => exact hf.elim

theorem take_lost {post : Situation → Taken → Prop} (hp : peer ∈ who.peers plan.size)
    (hs : (s.standing peer).status = .lost) (gone : post s .gone) :
    (Communicator.takeFrom peer wanted).Keeps (plan.contract who) post s := by
  refine .perform ⟨hp, .inl hs⟩ fun answer s' hf => ?_
  cases answer with
  | frame frame' =>
    obtain ⟨engaged, -⟩ := hf
    rw [hs] at engaged
    cases engaged
  | gone =>
    obtain rfl : s' = _ := hf
    rw [Situation.lose_lost hs]
    exact gone
  | failed error => exact hf.elim

theorem deliver_keeps {lost : GroupError} {post : Situation → Except GroupError Unit → Prop}
    (hp : peer ∈ who.peers plan.size) (hs : s.standing peer = ⟨k, .engaged⟩)
    (ht : (plan.between who peer)[k]? = some ⟨side who, frame⟩)
    (delivered : post (s.advance peer) (.ok ())) (gone : post (s.lose peer) (.error lost))
    (failed : ∀ error, frame.packet = .error error → post s (.error (.component error))) :
    (Communicator.deliver peer frame lost).Keeps (plan.contract who) post s :=
  .bind (send_keeps hp hs ht delivered gone failed)

theorem await_keeps {lost : GroupError} {post : Situation → Except GroupError Frame → Prop}
    (hp : peer ∈ who.peers plan.size) (hs : s.standing peer = ⟨k, .engaged⟩)
    (ht : (plan.between who peer)[k]? = some ⟨(side who).other, frame⟩)
    (accepted : wanted.accepts frame = true) (came : post (s.advance peer) (.ok frame))
    (gone : post (s.lose peer) (.error lost)) :
    (Communicator.await peer wanted lost).Keeps (plan.contract who) post s :=
  .bind (take_keeps hp hs ht accepted came gone)

theorem awaitPayload_keeps {lost : GroupError} {payload : List UInt8}
    {post : Situation → Except GroupError (List UInt8) → Prop}
    (hp : peer ∈ who.peers plan.size) (hs : s.standing peer = ⟨k, .engaged⟩)
    (ht : (plan.between who peer)[k]? = some ⟨(side who).other, frame⟩)
    (accepted : wanted.accepts frame = true)
    (carries : Communicator.payloadOf frame = .ok payload)
    (came : post (s.advance peer) (.ok payload)) (gone : post (s.lose peer) (.error lost)) :
    (Communicator.awaitPayload peer wanted lost).Keeps (plan.contract who) post s := by
  refine .bind (await_keeps hp hs ht accepted ?_ gone)
  change post (s.advance peer) (Communicator.payloadOf frame)
  rw [carries]
  exact came

end Single

theorem side_member (hm : who ∈ Rank.members plan.size) : side who = .spoke := by
  rw [side, Rank.isCoordinator_member hm]
  rfl

theorem between_member (hm : who ∈ Rank.members plan.size) (other : Rank) :
    plan.between who other = plan.dialogue who := by
  rw [between, Rank.isCoordinator_member hm]
  rfl

theorem finalize_keeps (finished : ∀ peer ∈ who.peers plan.size,
    (s.standing peer).status = .engaged →
      (s.standing peer).turn = (plan.between who peer).length) :
    c.finalize.Keeps (plan.contract who) (fun s' result => result = .ok () ∧ s' = s.close) s := by
  refine .bind (.perform finished fun answer s' hf => ?_)
  obtain rfl : s' = s.close := hf
  exact .bind (note_keeps ⟨rfl, rfl⟩)

section Member

variable (hm : who ∈ Rank.members plan.size) {k : Nat}
include hm

theorem Fits.spoke (fits : plan.Fits who s c) : ∃ link, c.topology = .spoke link := by
  have hs := fits.isSpoke
  rw [Rank.isCoordinator_member hm] at hs
  cases ht : c.topology with
  | spoke link => exact ⟨link, rfl⟩
  | alone | hub =>
    rw [ht] at hs
    cases hs

/-- Nothing has changed but that the coordinator was found gone, no sooner than at the first and
no later than at the last of these turns. -/
structure Bereft (s s' : Situation) (first last : Nat) : Prop where
  injected : s'.injected = s.injected
  status : (s'.standing .coordinator).status = .lost
  first_le : first ≤ (s'.standing .coordinator).turn
  le_last : (s'.standing .coordinator).turn ≤ last

structure Reaches (s s' : Situation) (turn : Nat) : Prop where
  injected : s'.injected = s.injected
  standing : s'.standing .coordinator = ⟨turn, .engaged⟩

omit hm in
theorem reaches_advance (hs : s.standing .coordinator = ⟨k, .engaged⟩) :
    Reaches s (s.advance .coordinator) (k + 1) := by
  refine ⟨rfl, ?_⟩
  rw [Situation.advance, Situation.change_same, hs]
  rfl

omit hm in
theorem bereft_lose (hs : s.standing .coordinator = ⟨k, .engaged⟩) :
    Bereft s (s.lose .coordinator) k k := by
  have hl : (s.lose .coordinator).standing .coordinator = ⟨k, .lost⟩ := by
    rw [Situation.lose, Situation.change_same, hs]
    rfl
  exact ⟨rfl, by rw [hl], by simp [hl], by simp [hl]⟩

theorem spoke_barrier_keeps (fits : plan.Fits who s c)
    (hs : s.standing .coordinator = ⟨k, .engaged⟩)
    (enter : (plan.dialogue who)[k]? = some ⟨.spoke, .barrierEnter⟩)
    (release : (plan.dialogue who)[k + 1]? = some ⟨.hub, .barrierRelease⟩) :
    c.barrier.Keeps (plan.contract who) (fun s' result =>
      (result = .ok () ∧ Reaches s s' (k + 2)) ∨
        (result = .error .coordinatorLost ∧ Bereft s s' k (k + 1))) s := by
  obtain ⟨link, ht⟩ := fits.spoke hm
  have hbarrier : c.barrier = Communicator.spokeBarrier := by rw [Communicator.barrier, ht]
  rw [← between_member hm .coordinator] at enter release
  have hp := Rank.coordinator_mem_peers hm
  have hreach := reaches_advance hs
  rw [hbarrier]
  refine .bind (deliver_keeps hp hs (by rw [side_member hm]; exact enter) ?_ ?_ ?_)
  · refine .bind (await_keeps hp hreach.standing (by rw [side_member hm]; exact release) rfl ?_ ?_)
    · exact .inl ⟨rfl, rfl, (reaches_advance hreach.standing).standing⟩
    · have hb := bereft_lose hreach.standing
      exact .inr ⟨rfl, hb.injected, hb.status, Nat.le_of_succ_le hb.first_le, hb.le_last⟩
  · have hb := bereft_lose hs
    exact .inr ⟨rfl, hb.injected, hb.status, hb.first_le, Nat.le_succ_of_le hb.le_last⟩
  · exact nofun

theorem spoke_send_keeps (fits : plan.Fits who s c) {tag : UInt32} {payload : List UInt8}
    (hs : s.standing .coordinator = ⟨k, .engaged⟩)
    (ht : (plan.dialogue who)[k]? = some ⟨.spoke, .data tag payload⟩) :
    (c.send .coordinator tag payload).Keeps (plan.contract who) (fun s' result =>
      (result = .ok () ∧ Reaches s s' (k + 1)) ∨
        (result = .error .coordinatorLost ∧ Bereft s s' k k) ∨
        (s' = s ∧ ∃ error, (Frame.data tag payload).packet = .error error ∧
          result = .error (.component error))) s := by
  obtain ⟨link, hspoke⟩ := fits.spoke hm
  have hsend : c.send .coordinator tag payload =
      Communicator.deliver .coordinator (.data tag payload) .coordinatorLost := by
    rw [Communicator.send, Communicator.route, hspoke]
    rfl
  rw [← between_member hm .coordinator] at ht
  rw [hsend]
  refine deliver_keeps (Rank.coordinator_mem_peers hm) hs
    (by rw [side_member hm]; exact ht) ?_ ?_ ?_
  · exact .inl ⟨rfl, reaches_advance hs⟩
  · exact .inr (.inl ⟨rfl, bereft_lose hs⟩)
  · exact fun error he => .inr (.inr ⟨rfl, error, he, rfl⟩)

theorem spoke_broadcast_keeps (fits : plan.Fits who s c) {payload : List UInt8}
    {passed : Option (List UInt8)} (hs : s.standing .coordinator = ⟨k, .engaged⟩)
    (ht : (plan.dialogue who)[k]? = some ⟨.hub, .broadcast payload⟩) :
    (c.broadcast .coordinator passed).Keeps (plan.contract who) (fun s' result =>
      (result = .ok payload ∧ Reaches s s' (k + 1)) ∨
        (result = .error .coordinatorLost ∧ Bereft s s' k k)) s := by
  obtain ⟨link, hspoke⟩ := fits.spoke hm
  have hbroadcast : c.broadcast .coordinator passed =
      Communicator.awaitPayload .coordinator .broadcast .coordinatorLost := by
    unfold Communicator.broadcast
    rw [hspoke]
    rfl
  rw [← between_member hm .coordinator] at ht
  rw [hbroadcast]
  refine awaitPayload_keeps (Rank.coordinator_mem_peers hm) hs (by rw [side_member hm]; exact ht)
    rfl rfl ?_ ?_
  · exact .inl ⟨rfl, reaches_advance hs⟩
  · exact .inr ⟨rfl, bereft_lose hs⟩

end Member

section Coordinator

variable {k : Nat} {injected : List FaultCode}

/-- These peers have got one turn further or were found gone at that turn; nothing else has
changed. -/
structure Passes (s s' : Situation) (k : Nat) (peers : List Rank) : Prop where
  injected : s'.injected = s.injected
  others : ∀ r, r ∉ peers → s'.standing r = s.standing r
  these : ∀ r ∈ peers, s'.standing r = ⟨k + 1, .engaged⟩ ∨ s'.standing r = ⟨k, .lost⟩

theorem Passes.nil (s : Situation) (k : Nat) : Passes s s k [] := ⟨rfl, fun _ _ => rfl, nofun⟩

theorem Passes.cons {s middle s' : Situation} {peer : Rank} {peers : List Rank}
    (fresh : peer ∉ peers) (first : Passes s middle k [peer]) (rest : Passes middle s' k peers) :
    Passes s s' k (peer :: peers) := by
  refine ⟨rest.injected.trans first.injected, fun r hr => ?_, fun r hr => ?_⟩
  · rw [rest.others r fun h => hr (List.mem_cons_of_mem _ h)]
    exact first.others r fun h => hr (List.mem_singleton.mp h ▸ List.mem_cons_self)
  · rcases List.mem_cons.mp hr with rfl | hr
    · rw [rest.others r fresh]
      exact first.these r (List.mem_singleton_self r)
    · exact rest.these r hr

theorem passes_advance (hs : s.standing peer = ⟨k, .engaged⟩) :
    Passes s (s.advance peer) k [peer] := by
  refine ⟨rfl, fun r hr => s.change_other _ fun h => hr (List.mem_singleton.mpr h), fun r hr => ?_⟩
  obtain rfl := List.mem_singleton.mp hr
  rw [Situation.advance, Situation.change_same, hs]
  exact .inl rfl

theorem passes_lose (hs : s.standing peer = ⟨k, .engaged⟩) :
    Passes s (s.lose peer) k [peer] := by
  refine ⟨rfl, fun r hr => s.change_other _ fun h => hr (List.mem_singleton.mpr h), fun r hr => ?_⟩
  obtain rfl := List.mem_singleton.mp hr
  rw [Situation.lose, Situation.change_same, hs]
  exact .inr rfl

/-- The peers stand at the turn at which the coordinator has to hear or to say this frame. -/
def Stand (plan : Plan) (s : Situation) (k : Nat) (turn : Turn) (peers : List Rank) : Prop :=
  ∀ r ∈ peers, r ∈ Rank.members plan.size ∧ s.standing r = ⟨k, .engaged⟩ ∧
    (plan.dialogue r)[k]? = some turn

theorem Stand.after {turn : Turn} {s s' : Situation} {peers : List Rank}
    (h : Stand plan s k turn (peer :: peers)) (fresh : peer ∉ peers)
    (first : Passes s s' k [peer]) : Stand plan s' k turn peers := by
  intro r hr
  have hne : r ≠ peer := fun he => fresh (he ▸ hr)
  rw [first.others r fun hm => hne (List.mem_singleton.mp hm)]
  exact h r (List.mem_cons_of_mem _ hr)

theorem collect_keeps (me : Rank) {awaited : List Rank} (nodup : awaited.Nodup)
    (stand : Stand plan s k ⟨.spoke, .barrierEnter⟩ awaited) :
    (Communicator.collect me awaited).Keeps (plan.contract .coordinator)
      (fun s' result => result = .ok (awaited.filter s'.engaged) ∧ Passes s s' k awaited) s := by
  induction awaited generalizing s with
  | nil => exact ⟨rfl, .nil s k⟩
  | cons peer awaited ih =>
    obtain ⟨fresh, nodup⟩ := List.nodup_cons.mp nodup
    obtain ⟨hm, hs, ht⟩ := stand peer List.mem_cons_self
    refine .bind (take_keeps hm hs ht rfl ?_ ?_)
    · have first := passes_advance hs
      refine .bind ((ih nodup (stand.after fresh first)).mono fun s' result h => ?_)
      obtain ⟨rfl, rest⟩ := h
      have hengaged : s'.engaged peer = true := by
        rw [Situation.engaged, rest.others peer fresh, Situation.advance, Situation.change_same,
          hs]
        rfl
      refine ⟨?_, .cons fresh first rest⟩
      rw [List.filter_cons_of_pos hengaged]
      rfl
    · have first := passes_lose hs
      refine .bind (note_keeps ((ih nodup (stand.after fresh first)).mono fun s' result h => ?_))
      obtain ⟨rfl, rest⟩ := h
      have hlost : ¬s'.engaged peer = true := by
        rw [Situation.engaged, rest.others peer fresh, Situation.lose, Situation.change_same, hs]
        exact Bool.false_ne_true
      refine ⟨?_, .cons fresh first rest⟩
      rw [List.filter_cons_of_neg hlost]

theorem sendAll_keeps (me : Rank) {frame : Frame} (occasion : String) {targets : List Rank}
    (nodup : targets.Nodup) (stand : Stand plan s k ⟨.hub, frame⟩ targets)
    (fits : ∀ error, frame.packet ≠ .error error) :
    (Communicator.sendAll me frame occasion targets).Keeps (plan.contract .coordinator)
      (fun s' result => result = .ok () ∧ Passes s s' k targets) s := by
  induction targets generalizing s with
  | nil => exact ⟨rfl, .nil s k⟩
  | cons peer targets ih =>
    obtain ⟨fresh, nodup⟩ := List.nodup_cons.mp nodup
    obtain ⟨hm, hs, ht⟩ := stand peer List.mem_cons_self
    refine .bind (send_keeps hm hs ht ?_ ?_ fun error he => absurd he (fits error))
    · have first := passes_advance hs
      exact (ih nodup (stand.after fresh first)).mono fun s' result h =>
        ⟨h.1, .cons fresh first h.2⟩
    · have first := passes_lose hs
      exact .bind (note_keeps ((ih nodup (stand.after fresh first)).mono fun s' result h =>
        ⟨h.1, .cons fresh first h.2⟩))

/-- Every member has got as far as this turn, or was found gone before. -/
structure AllAt (plan : Plan) (s : Situation) (k : Nat) (injected : List FaultCode) : Prop where
  injected : s.injected = injected
  members : ∀ m ∈ Rank.members plan.size, s.standing m = ⟨k, .engaged⟩ ∨
    ((s.standing m).status = .lost ∧ (s.standing m).turn < k)

theorem AllAt.early (h : AllAt plan s k injected) :
    ∀ m ∈ Rank.members plan.size, (s.standing m).turn ≤ k := by
  intro m hm
  rcases h.members m hm with hs | hs
  · exact Nat.le_of_eq (congrArg Standing.turn hs)
  · exact Nat.le_of_lt hs.2

theorem AllAt.passes {s s' : Situation} {peers : List Rank} (h : AllAt plan s k injected)
    (all : ∀ m ∈ Rank.members plan.size, s.engaged m = true → m ∈ peers)
    (passes : Passes s s' k peers) : AllAt plan s' (k + 1) injected := by
  refine ⟨passes.injected.trans h.injected, fun m hm => ?_⟩
  by_cases hp : m ∈ peers
  · rcases passes.these m hp with hs | hs
    · exact .inl hs
    · exact .inr (by rw [hs]; exact ⟨rfl, Nat.lt_succ_self k⟩)
  · rw [passes.others m hp]
    rcases h.members m hm with hs | ⟨hs, hlt⟩
    · exact absurd (all m hm (by rw [Situation.engaged, hs]; rfl)) hp
    · exact .inr ⟨hs, Nat.lt_succ_of_lt hlt⟩

theorem AllAt.stand {turn : Turn} (h : AllAt plan s k injected)
    (next : ∀ m ∈ Rank.members plan.size, (plan.dialogue m)[k]? = some turn) :
    Stand plan s k turn ((Rank.members plan.size).filter s.engaged) := by
  intro m hm
  obtain ⟨hm, engaged⟩ := List.mem_filter.mp hm
  refine ⟨hm, ?_, next m hm⟩
  rcases h.members m hm with hs | ⟨hs, -⟩
  · exact hs
  · rw [Situation.engaged_iff, hs] at engaged
    cases engaged

theorem Fits.live_members (fits : plan.Fits .coordinator s c) :
    c.topology.livePeers = (Rank.members plan.size).filter s.engaged :=
  fits.livePeers

theorem Fits.hub_barrier (fits : plan.Fits .coordinator s c) :
    c.barrier = Communicator.hubBarrier c.rank c.topology.livePeers := by
  have hs : c.topology.isSpoke = false := fits.isSpoke
  unfold Communicator.barrier
  cases ht : c.topology with
  | alone | hub => rfl
  | spoke =>
    rw [ht] at hs
    cases hs

theorem Fits.hub_broadcast (fits : plan.Fits .coordinator s c) (payload : List UInt8) :
    c.broadcast .coordinator (some payload) =
      Communicator.hubBroadcast c.rank payload c.topology.livePeers := by
  have hs : c.topology.isSpoke = false := fits.isSpoke
  unfold Communicator.broadcast
  cases ht : c.topology with
  | alone | hub => rfl
  | spoke =>
    rw [ht] at hs
    cases hs

theorem hub_barrier_keeps (fits : plan.Fits .coordinator s c) (h : AllAt plan s k injected)
    (enter : ∀ m ∈ Rank.members plan.size,
      (plan.dialogue m)[k]? = some ⟨.spoke, .barrierEnter⟩)
    (release : ∀ m ∈ Rank.members plan.size,
      (plan.dialogue m)[k + 1]? = some ⟨.hub, .barrierRelease⟩) :
    c.barrier.Keeps (plan.contract .coordinator)
      (fun s' result => result = .ok () ∧ AllAt plan s' (k + 2) injected) s := by
  rw [fits.hub_barrier, fits.live_members]
  have nodup := (Rank.nodup_members plan.size).filter s.engaged
  refine .bind ((collect_keeps _ nodup (h.stand enter)).mono ?_)
  rintro middle _ ⟨rfl, heard⟩
  have hmiddle := h.passes (fun m hm he => List.mem_filter.mpr ⟨hm, he⟩) heard
  -- Whoever was heard is where the coordinator has to release it.
  have stand : Stand plan middle (k + 1) ⟨.hub, .barrierRelease⟩
      (((Rank.members plan.size).filter s.engaged).filter middle.engaged) := by
    intro m hm
    obtain ⟨hm, he⟩ := List.mem_filter.mp hm
    exact hmiddle.stand release m (List.mem_filter.mpr ⟨(List.mem_filter.mp hm).1, he⟩)
  refine (sendAll_keeps _ _ (nodup.filter _) stand nofun).mono fun s' result released => ?_
  refine ⟨released.1, hmiddle.passes (fun m hm he => ?_) released.2⟩
  refine List.mem_filter.mpr ⟨List.mem_filter.mpr ⟨hm, ?_⟩, he⟩
  -- Nobody that was lost before is engaged now.
  refine Decidable.byContradiction fun hn => ?_
  rw [Situation.engaged, heard.others m fun hmem => hn (List.mem_filter.mp hmem).2] at he
  exact hn he

theorem hub_broadcast_keeps (fits : plan.Fits .coordinator s c) (h : AllAt plan s k injected)
    {payload : List UInt8} (next : ∀ m ∈ Rank.members plan.size,
      (plan.dialogue m)[k]? = some ⟨.hub, .broadcast payload⟩)
    (small : ∀ error, (Frame.broadcast payload).packet ≠ .error error) :
    (c.broadcast .coordinator (some payload)).Keeps (plan.contract .coordinator)
      (fun s' result => result = .ok payload ∧ AllAt plan s' (k + 1) injected) s := by
  rw [fits.hub_broadcast, fits.live_members]
  have nodup := (Rank.nodup_members plan.size).filter s.engaged
  refine .bind ((sendAll_keeps _ _ nodup (h.stand next) small).mono fun s' result sent => ?_)
  obtain ⟨rfl, passes⟩ := sent
  exact ⟨rfl, h.passes (fun m hm he => List.mem_filter.mpr ⟨hm, he⟩) passes⟩

theorem Fits.hub_recv (fits : plan.Fits .coordinator s c) {member : Rank} (tag : UInt32)
    (hm : member ∈ Rank.members plan.size) :
    c.recv member tag =
      Communicator.awaitPayload member (.data tag) (.peerDeparted member) := by
  have hs : c.topology.isSpoke = false := fits.isSpoke
  obtain ⟨link, hl, -⟩ := fits.link hm
  have hroute : c.route member = .ok (.peerDeparted member) := by
    unfold Communicator.route
    cases ht : c.topology with
    | alone | hub =>
      rw [ht] at hl
      simp [hl]
    | spoke =>
      rw [ht] at hs
      cases hs
  rw [Communicator.recv, hroute]

theorem hub_recv_keeps (fits : plan.Fits .coordinator s c) {member : Rank}
    {payload : List UInt8} {tag : UInt32} (hm : member ∈ Rank.members plan.size)
    (hs : s.standing member = ⟨k, .engaged⟩)
    (ht : (plan.dialogue member)[k]? = some ⟨.spoke, .data tag payload⟩) :
    (c.recv member tag).Keeps (plan.contract .coordinator) (fun s' result =>
      (result = .ok payload ∧ s' = s.advance member) ∨
        (result = .error (.peerDeparted member) ∧ s' = s.lose member)) s := by
  rw [fits.hub_recv tag hm]
  exact awaitPayload_keeps hm hs ht (by simp [Wanted.accepts]) rfl (.inl ⟨rfl, rfl⟩)
    (.inr ⟨rfl, rfl⟩)

theorem hub_recv_lost (fits : plan.Fits .coordinator s c) {member : Rank} {tag : UInt32}
    (hm : member ∈ Rank.members plan.size) (hs : (s.standing member).status = .lost) :
    (c.recv member tag).Keeps (plan.contract .coordinator)
      (fun s' result => result = .error (.peerDeparted member) ∧ s' = s) s := by
  rw [fits.hub_recv tag hm]
  exact .bind (.bind (take_lost hm hs ⟨rfl, rfl⟩))

end Coordinator

end Plan
end FaultDrill
