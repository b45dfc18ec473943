import FaultDrill.Group.Session
import FaultDrill.Proofs.Contract
import FaultDrill.Proofs.Fidelity
set_option autoImplicit false

namespace FaultDrill

def Frame.carries : Frame → Bool
  | .data .. | .broadcast _ => true
  | .join _ | .barrierEnter | .barrierRelease => false

namespace Reply

def posted (peer : Rank) : Reply → List Frame
  | ⟨.send target tag payload, .ok ()⟩ => if target = peer then [.data tag payload] else []
  | ⟨.broadcast .., .ok payload⟩ => if peer.isCoordinator then [] else [.broadcast payload]
  | _ => []

def fetched (peer : Rank) : Reply → List Frame
  | ⟨.recv source tag, .ok payload⟩ => if source = peer then [.data tag payload] else []
  | ⟨.broadcast .., .ok payload⟩ => if peer.isCoordinator then [.broadcast payload] else []
  | _ => []

end Reply

/-- What a call has done so far on the link with one peer, barrier frames aside. -/
structure Traffic where
  posted : List Frame
  fetched : List Frame

def Network.Answered.closes (peer : Rank) : Network.Answered → Bool
  | ⟨.send target _, .gone⟩ | ⟨.take target _, .gone⟩ => target == peer
  | ⟨.hangUp, _⟩ => true
  | _ => false

/-- What an exchange comes to when no connection breaks down: only a frame that is too large
fails to be sent, and a frame that is taken is of the class that was waited for. -/
def Network.Answered.IsSound : (exchange : Exchange) → exchange.Answer → Prop
  | .send _ frame, .delivered => ∃ bytes, frame.packet = .ok bytes
  | .send _ frame, .failed _ => ∃ error, frame.packet = .error error
  | .take _ wanted, .frame frame => wanted.accepts frame = true
  | _, _ => True

namespace Traffic
open Network

def empty : Traffic := ⟨[], []⟩

def next (peer : Rank) (traffic : Traffic) (answered : Answered) : Traffic :=
  ⟨traffic.posted ++ (Step.sentTo? peer answered).toList.filter Frame.carries,
    traffic.fetched ++ (Step.takenFrom? peer answered).toList.filter Frame.carries⟩

def after (peer : Rank) (answered : Answered) : Option Traffic → Option Traffic
  | none => none
  | some traffic => if answered.closes peer then none else some (traffic.next peer answered)

/-- What a call may have done before it has its answer. -/
structure Underway (call : Call) (traffic : Traffic) : Prop where
  fetched : traffic.fetched = []
  posted : traffic.posted = [] ∨
    ∃ root payload, call = .broadcast root (some payload) ∧ traffic.posted = [.broadcast payload]

def contract (peer : Rank) (call : Call) : Contract Exchange.interface (Option Traffic) where
  due state _ := ∀ traffic ∈ state, traffic.Underway call
  follows state exchange answer state' :=
    Answered.IsSound exchange answer ∧ state' = after peer ⟨exchange, answer⟩ state

def ends (peer : Rank) (call : Call) (state : Option Traffic) (answer : call.Answer) : Prop :=
  ∀ traffic ∈ state, traffic = ⟨Reply.posted peer ⟨call, answer⟩, Reply.fetched peer ⟨call, answer⟩⟩

theorem underway_empty (call : Call) : Underway call empty := ⟨rfl, .inl rfl⟩

theorem after_idle {peer : Rank} {answered : Answered} (opened : answered.closes peer = false)
    (sent : Step.sentTo? peer answered = none) (taken : Step.takenFrom? peer answered = none)
    (traffic : Traffic) : after peer answered (some traffic) = some traffic := by
  simp [after, next, opened, sent, taken]

end Traffic

namespace Communicator
open Traffic Network

section Calls

variable {peer : Rank} {call : Call}

theorem keeps_lost {β : Type} {post : Option Traffic → β → Prop} (h : ∀ result, post none result)
    (p : Conduct β) : p.Keeps (Traffic.contract peer call) post none := by
  induction p with
  | done result => exact h result
  | ask exchange next ih =>
    refine ⟨nofun, ?_⟩
    rintro answer _ ⟨-, rfl⟩
    exact ih answer

theorem note_traffic {traffic : Traffic} (severity : Severity) (me : Rank) (message : String)
    {post : Option Traffic → Unit → Prop} (underway : traffic.Underway call)
    (h : post (some traffic) ()) :
    (note severity me message).Keeps (Traffic.contract peer call) post (some traffic) := by
  refine .perform (by rintro _ ⟨⟩; exact underway) ?_
  rintro answer _ ⟨-, rfl⟩
  rw [after_idle rfl rfl rfl]
  exact h

theorem sendTo_traffic {traffic : Traffic} {target : Rank} {frame : Frame}
    {post : Option Traffic → Sent → Prop} (underway : traffic.Underway call)
    (delivered : (∃ bytes, frame.packet = .ok bytes) → post (some ⟨traffic.posted ++
      if target = peer then [frame].filter Frame.carries else [], traffic.fetched⟩) .delivered)
    (gone : target ≠ peer → post (some traffic) .gone) (lost : post none .gone)
    (failed : ∀ error, (∃ refusal, frame.packet = .error refusal) →
      post (some traffic) (.failed error)) :
    (sendTo target frame).Keeps (Traffic.contract peer call) post (some traffic) := by
  refine .perform (by rintro _ ⟨⟩; exact underway) ?_
  rintro answer _ ⟨sound, rfl⟩
  cases answer with
  | delivered =>
    have htraffic : traffic.next peer ⟨.send target frame, .delivered⟩ = ⟨traffic.posted ++
        if target = peer then [frame].filter Frame.carries else [], traffic.fetched⟩ := by
      by_cases ht : target = peer <;> simp [Traffic.next, Step.sentTo?, Step.takenFrom?, ht]
    simp only [after, Answered.closes, Bool.false_eq_true, if_false, htraffic]
    exact delivered sound
  | gone =>
    by_cases ht : target = peer
    · simp only [after, Answered.closes, ht, beq_self_eq_true, if_true]
      exact lost
    · have opened : Answered.closes peer ⟨.send target frame, .gone⟩ = false :=
        beq_eq_false_iff_ne.mpr ht
      rw [after_idle opened rfl rfl]
      exact gone ht
  | failed error =>
    rw [after_idle rfl rfl rfl]
    exact failed error sound

theorem takeFrom_traffic {traffic : Traffic} {source : Rank} {wanted : Wanted}
    {post : Option Traffic → Taken → Prop} (underway : traffic.Underway call)
    (came : ∀ frame, wanted.accepts frame = true → post (some ⟨traffic.posted, traffic.fetched ++
      if source = peer then [frame].filter Frame.carries else []⟩) (.frame frame))
    (gone : source ≠ peer → post (some traffic) .gone) (lost : post none .gone)
    (failed : ∀ error, post (some traffic) (.failed error)) :
    (takeFrom source wanted).Keeps (Traffic.contract peer call) post (some traffic) := by
  refine .perform (by rintro _ ⟨⟩; exact underway) ?_
  rintro answer _ ⟨sound, rfl⟩
  cases answer with
  | frame frame =>
    have htraffic : traffic.next peer ⟨.take source wanted, .frame frame⟩ = ⟨traffic.posted,
        traffic.fetched ++ if source = peer then [frame].filter Frame.carries else []⟩ := by
      by_cases ht : source = peer <;> simp [Traffic.next, Step.sentTo?, Step.takenFrom?, ht]
    simp only [after, Answered.closes, Bool.false_eq_true, if_false, htraffic]
    exact came frame sound
  | gone =>
    by_cases ht : source = peer
    · simp only [after, Answered.closes, ht, beq_self_eq_true, if_true]
      exact lost
    · have opened : Answered.closes peer ⟨.take source wanted, .gone⟩ = false :=
        beq_eq_false_iff_ne.mpr ht
      rw [after_idle opened rfl rfl]
      exact gone ht
  | failed error =>
    rw [after_idle rfl rfl rfl]
    exact failed error

theorem sendAll_posts (me : Rank) {frame : Frame} (occasion : String) {peers : List Rank}
    {posted : List Frame} (fits : ∃ bytes, frame.packet = .ok bytes) (nodup : peers.Nodup)
    (before : Underway call ⟨posted, []⟩)
    (afterwards : peer ∈ peers → Underway call ⟨posted ++ [frame].filter Frame.carries, []⟩) :
    (sendAll me frame occasion peers).Keeps (Traffic.contract peer call)
      (fun state result => ∀ traffic ∈ state, result = .ok () ∧ traffic =
        ⟨posted ++ if peer ∈ peers then [frame].filter Frame.carries else [], []⟩)
      (some ⟨posted, []⟩) := by
  induction peers generalizing posted with
  | nil =>
    rintro _ ⟨⟩
    rw [if_neg List.not_mem_nil, List.append_nil]
    exact ⟨rfl, rfl⟩
  | cons target rest ih =>
    obtain ⟨fresh, nodup⟩ := List.nodup_cons.mp nodup
    have hrest : target ≠ peer → (peer ∈ target :: rest ↔ peer ∈ rest) := by
      intro ht
      simp [Ne.symm ht]
    refine .bind (sendTo_traffic before ?_ ?_ (keeps_lost (fun _ => nofun) _) ?_)
    · intro _
      by_cases ht : target = peer
      · -- The peer comes up once, so sending to the rest leaves its traffic as it is.
        subst ht
        have hsent := ih nodup (afterwards List.mem_cons_self) fun hm => absurd hm fresh
        rw [if_neg fresh, List.append_nil] at hsent
        rw [if_pos rfl, if_pos List.mem_cons_self]
        exact hsent
      · rw [if_neg ht, List.append_nil]
        simp only [hrest ht] at afterwards ⊢
        exact ih nodup before afterwards
    · intro ht
      simp only [hrest ht] at afterwards ⊢
      exact .bind (note_traffic _ _ _ before (ih nodup before afterwards))
    · rintro error ⟨refusal, hr⟩
      obtain ⟨bytes, hb⟩ := fits
      rw [hb] at hr
      cases hr

theorem sendAll_refused (me : Rank) {frame : Frame} {refusal : ComponentError} (occasion : String)
    (peers : List Rank) (large : frame.packet = .error refusal) :
    (sendAll me frame occasion peers).Keeps (Traffic.contract peer call)
      (fun state result => ∀ traffic ∈ state, (result = .ok () → peer ∉ peers) ∧ traffic = .empty)
      (some .empty) := by
  induction peers with
  | nil =>
    rintro _ ⟨⟩
    exact ⟨fun _ => List.not_mem_nil, rfl⟩
  | cons target rest ih =>
    refine .bind (sendTo_traffic (underway_empty call) ?_ ?_ (keeps_lost (fun _ => nofun) _) ?_)
    · rintro ⟨bytes, hb⟩
      rw [large] at hb
      cases hb
    · intro ht
      have hrest : peer ∈ target :: rest ↔ peer ∈ rest := by simp [Ne.symm ht]
      simp only [hrest]
      exact .bind (note_traffic _ _ _ (underway_empty call) ih)
    · rintro error - _ ⟨⟩
      exact ⟨nofun, rfl⟩

theorem deliver_traffic (target : Rank) (frame : Frame) (lost : GroupError) :
    (deliver target frame lost).Keeps (Traffic.contract peer call)
      (fun state result => ∀ traffic ∈ state, traffic = match result with
        | .ok () => ⟨if target = peer then [frame].filter Frame.carries else [], []⟩
        | .error _ => .empty)
      (some .empty) := by
  refine .bind (sendTo_traffic (underway_empty call) ?_ ?_ nofun ?_)
  · rintro - _ ⟨⟩
    rfl
  · rintro - _ ⟨⟩
    rfl
  · rintro error - _ ⟨⟩
    rfl

theorem await_traffic (source : Rank) (wanted : Wanted) (lost : GroupError) :
    (await source wanted lost).Keeps (Traffic.contract peer call)
      (fun state result => ∀ traffic ∈ state, match result with
        | .ok frame => wanted.accepts frame = true ∧
            traffic = ⟨[], if source = peer then [frame].filter Frame.carries else []⟩
        | .error _ => traffic = .empty)
      (some .empty) := by
  refine .bind (takeFrom_traffic (underway_empty call) ?_ ?_ nofun ?_)
  · rintro frame accepted _ ⟨⟩
    exact ⟨accepted, rfl⟩
  · rintro - _ ⟨⟩
    rfl
  · rintro error _ ⟨⟩
    rfl

theorem collect_traffic (me : Rank) (peers : List Rank) :
    (collect me peers).Keeps (Traffic.contract peer call)
      (fun state result => ∀ traffic ∈ state, traffic = .empty ∧
        ∀ present, result = .ok present → present.Sublist peers)
      (some .empty) := by
  induction peers with
  | nil =>
    rintro _ ⟨⟩
    refine ⟨rfl, ?_⟩
    rintro present ⟨⟩
    exact .slnil
  | cons source rest ih =>
    refine .bind (takeFrom_traffic (underway_empty call) ?_ ?_ (keeps_lost (fun _ => nofun) _) ?_)
    · intro frame accepted
      obtain rfl : frame = .barrierEnter := by cases frame <;> first | rfl | cases accepted
      have hnone : (if source = peer then [Frame.barrierEnter].filter Frame.carries else []) = [] :=
        ite_self []
      rw [hnone]
      refine .bind (ih.mono fun state result h traffic ht => ⟨(h traffic ht).1, ?_⟩)
      intro present hp
      cases result with
      | error => cases hp
      | ok heard =>
        obtain rfl : source :: heard = present := Except.ok.inj hp
        exact ((h traffic ht).2 heard rfl).cons_cons source
    · intro _
      refine .bind (note_traffic _ _ _ (underway_empty call) (ih.mono ?_))
      exact fun state result h traffic ht =>
        ⟨(h traffic ht).1, fun present hp => ((h traffic ht).2 present hp).cons source⟩
    · rintro error _ ⟨⟩
      exact ⟨rfl, nofun⟩

theorem hubBarrier_traffic (me : Rank) {peers : List Rank} (nodup : peers.Nodup) :
    (hubBarrier me peers).Keeps (Traffic.contract peer .barrier) (Traffic.ends peer .barrier)
      (some .empty) := by
  refine .bind ((collect_traffic me peers).mono fun state result h => ?_)
  cases state with
  | none => exact keeps_lost (fun _ => nofun) _
  | some traffic =>
    -- Those who were heard are some of the peers, so that nobody is released twice.
    obtain ⟨rfl, hsub⟩ := h traffic rfl
    cases result with
    | error error =>
      rintro _ ⟨⟩
      rfl
    | ok present =>
      have fits : ∃ bytes, Frame.barrierRelease.packet = .ok bytes := ⟨_, rfl⟩
      refine (sendAll_posts me "during barrier release" fits ((hsub present rfl).nodup nodup)
        (underway_empty .barrier) fun _ => underway_empty .barrier).mono ?_
      intro state result h traffic ht
      rw [(h traffic ht).2]
      exact congrArg (Traffic.mk · []) (ite_self [])

theorem spokeBarrier_traffic :
    spokeBarrier.Keeps (Traffic.contract peer .barrier) (Traffic.ends peer .barrier)
      (some .empty) := by
  refine .bind ((deliver_traffic .coordinator .barrierEnter .coordinatorLost).mono
    fun state result h => ?_)
  cases state with
  | none => exact keeps_lost (fun _ => nofun) _
  | some traffic =>
    obtain rfl : traffic = .empty := by
      rw [h traffic rfl]
      cases result with
      | error => rfl
      | ok => exact congrArg (Traffic.mk · []) (ite_self [])
    cases result with
    | error error =>
      rintro _ ⟨⟩
      rfl
    | ok =>
      refine .bind ((await_traffic .coordinator .barrierRelease .coordinatorLost).mono ?_)
      intro state result h traffic ht
      have hres := h traffic ht
      cases result with
      | error => exact hres
      | ok frame =>
        obtain ⟨accepted, rfl⟩ := hres
        obtain rfl : frame = .barrierRelease := by cases frame <;> first | rfl | cases accepted
        exact congrArg (Traffic.mk []) (ite_self [])

theorem hubBroadcast_traffic (me root : Rank) (payload : List UInt8) {peers : List Rank}
    (nodup : peers.Nodup) (here : peer ∈ peers) (member : peer.isCoordinator = false) :
    (hubBroadcast me payload peers).Keeps (Traffic.contract peer (.broadcast root (some payload)))
      (Traffic.ends peer (.broadcast root (some payload))) (some .empty) := by
  cases hfits : (Frame.broadcast payload).packet with
  | ok whole =>
    refine .bind ((sendAll_posts me "before the broadcast" ⟨whole, hfits⟩ nodup
      (underway_empty _) fun _ => ⟨rfl, .inr ⟨root, payload, rfl, rfl⟩⟩).mono ?_)
    intro state result h traffic ht
    obtain ⟨rfl, rfl⟩ := h traffic ht
    rw [if_pos here]
    simp [Reply.posted, Reply.fetched, member, Except.map, Frame.carries]
  | error refusal =>
    refine .bind ((sendAll_refused me "before the broadcast" peers hfits).mono ?_)
    intro state result h traffic ht
    obtain ⟨refused, rfl⟩ := h traffic ht
    cases result with
    | error => rfl
    | ok => exact absurd here (refused rfl)

theorem spokeBroadcast_traffic (root : Rank) (payload : Option (List UInt8)) :
    (awaitPayload .coordinator .broadcast .coordinatorLost).Keeps
      (Traffic.contract .coordinator (.broadcast root payload))
      (Traffic.ends .coordinator (.broadcast root payload)) (some .empty) := by
  refine .bind ((await_traffic .coordinator .broadcast .coordinatorLost).mono ?_)
  intro state result h traffic ht
  have hres := h traffic ht
  cases result with
  | error => exact hres
  | ok frame =>
    obtain ⟨accepted, rfl⟩ := hres
    cases frame with
    | broadcast given => rfl
    | join | barrierEnter | barrierRelease | data => cases accepted

end Calls

section Conducts

variable (c : Communicator) {peer : Rank}

theorem barrier_traffic (nodup : c.topology.livePeers.Nodup) :
    (c.barrier).Keeps (Traffic.contract peer .barrier) (Traffic.ends peer .barrier)
      (some .empty) := by
  unfold barrier
  split
  · rintro _ ⟨⟩
    rfl
  · exact hubBarrier_traffic c.rank nodup
  · exact spokeBarrier_traffic

theorem broadcast_traffic (root : Rank) (payload : Option (List UInt8))
    (nodup : c.topology.livePeers.Nodup) (here : peer ∈ c.topology.livePeers)
    (side : c.topology.isSpoke = peer.isCoordinator) :
    (c.broadcast root payload).Keeps (Traffic.contract peer (.broadcast root payload))
      (Traffic.ends peer (.broadcast root payload)) (some .empty) := by
  unfold broadcast
  split
  · rintro _ ⟨⟩
    rfl
  · split
    · rename_i link spoke
      have hpeer : peer.isCoordinator = true := by
        rw [← side, spoke]
        rfl
      obtain rfl := Rank.isCoordinator_iff.mp hpeer
      exact spokeBroadcast_traffic root payload
    · rename_i hub
      have member : peer.isCoordinator = false := by
        rw [← side]
        cases ht : c.topology with
        | spoke link => exact absurd ht (hub link)
        | alone | hub => rfl
      cases payload with
      | none =>
        rintro _ ⟨⟩
        rfl
      | some bytes => exact hubBroadcast_traffic c.rank root bytes nodup here member

theorem send_traffic (target : Rank) (tag : UInt32) (payload : List UInt8) :
    (c.send target tag payload).Keeps (Traffic.contract peer (.send target tag payload))
      (Traffic.ends peer (.send target tag payload)) (some .empty) := by
  unfold send
  split
  · rintro _ ⟨⟩
    rfl
  · refine (deliver_traffic target (.data tag payload) _).mono fun state result h traffic ht => ?_
    rw [h traffic ht]
    cases result with
    | error => rfl
    | ok => rfl

theorem recv_traffic (source : Rank) (tag : UInt32) :
    (c.recv source tag).Keeps (Traffic.contract peer (.recv source tag))
      (Traffic.ends peer (.recv source tag)) (some .empty) := by
  unfold recv
  split
  · rintro _ ⟨⟩
    rfl
  · refine .bind ((await_traffic source (.data tag) _).mono fun state result h traffic ht => ?_)
    have hres := h traffic ht
    cases result with
    | error => exact hres
    | ok frame =>
      obtain ⟨accepted, rfl⟩ := hres
      cases frame with
      | data found payload =>
        obtain rfl : found = tag := by simpa [Wanted.accepts] using accepted
        rfl
      | join | barrierEnter | barrierRelease | broadcast => cases accepted

theorem conduct_traffic (call : Call) (nodup : c.topology.livePeers.Nodup)
    (here : peer ∈ c.topology.livePeers) (side : c.topology.isSpoke = peer.isCoordinator) :
    (c.conduct call).Keeps (Traffic.contract peer call) (Traffic.ends peer call) (some .empty) := by
  cases call with
  | barrier => exact c.barrier_traffic nodup
  | broadcast root payload => exact c.broadcast_traffic root payload nodup here side
  | send target tag payload => exact c.send_traffic target tag payload
  | recv source tag => exact c.recv_traffic source tag
  | departed =>
    rintro _ ⟨⟩
    rfl
  | finalize =>
    refine .bind (.perform (by rintro _ ⟨⟩; exact underway_empty _) ?_)
    rintro answer _ ⟨-, rfl⟩
    exact keeps_lost (fun _ => nofun) _

end Conducts

end Communicator
end FaultDrill
