import FaultDrill.Link
import FaultDrill.Proofs.Packet
set_option autoImplicit false

namespace FaultDrill

def Taken.frames : Taken → List Frame
  | .frame found => [found]
  | .gone | .failed _ => []

namespace Link

theorem removeFirst_eq_none {accept : Frame → Bool} {frames : List Frame}
    (h : removeFirst? accept frames = none) : ∀ frame ∈ frames, accept frame = false := by
  induction frames with
  | nil => simp
  | cons frame rest ih =>
    simp only [removeFirst?] at h
    split at h
    · cases h
    · rename_i refused
      intro other hm
      rcases List.mem_cons.mp hm with rfl | hm
      · simpa using refused
      · exact ih (Option.map_eq_none_iff.mp h) other hm

theorem removeFirst_eq_some {accept : Frame → Bool} {frames others : List Frame} {found : Frame}
    (h : removeFirst? accept frames = some (found, others)) :
    ∃ before after, frames = before ++ found :: after ∧ others = before ++ after ∧
      accept found = true ∧ ∀ frame ∈ before, accept frame = false := by
  induction frames generalizing others with
  | nil => cases h
  | cons frame rest ih =>
    simp only [removeFirst?] at h
    split at h
    · rename_i accepted
      cases h
      exact ⟨[], rest, rfl, rfl, accepted, by simp⟩
    · rename_i refused
      obtain ⟨⟨found', others'⟩, hr, he⟩ := Option.map_eq_some_iff.mp h
      cases he
      obtain ⟨before, after, rfl, rfl, accepted, hb⟩ := ih hr
      refine ⟨frame :: before, after, rfl, rfl, accepted, ?_⟩
      intro other hm
      rcases List.mem_cons.mp hm with rfl | hm
      · simpa using refused
      · exact hb other hm

/-- The arrivals of a link are these frames, and nothing that reading fails at. -/
def Holds (link : Link) (frames : List Frame) : Prop :=
  link.inbox.arrivals = frames.map Arrival.frame

theorem Holds.unique {link : Link} {frames frames' : List Frame} (h : link.Holds frames)
    (h' : link.Holds frames') : frames = frames' :=
  (List.map_inj_right fun _ _ he => Arrival.frame.inj he).mp (h.symm.trans h')

/-- The ways in which waiting for a frame goes, for a link on which `arrived` has arrived. -/
inductive Takes (accept : Frame → Bool) (ended : Bool) (breakdown : Option FaultKind)
    (link : Link) (arrived : List Frame) : Option Taken → Link → Prop where
  | kept {before after : List Frame} {found : Frame}
      (split : link.pending = before ++ found :: after) (accepted : accept found = true)
      (passed : ∀ frame ∈ before, accept frame = false) :
      Takes accept ended breakdown link arrived (some (.frame found))
        { link with pending := before ++ after }
  | dead (refused : ∀ frame ∈ link.pending, accept frame = false) (dead : link.live = false) :
      Takes accept ended breakdown link arrived (some .gone) link
  | broken {kind : FaultKind} (refused : ∀ frame ∈ link.pending, accept frame = false)
      (live : link.live = true) (broke : breakdown = some kind) :
      Takes accept ended breakdown link arrived (some (link.failReading kind).1)
        (link.failReading kind).2
  | arrived {before after : List Frame} {found : Frame}
      (refused : ∀ frame ∈ link.pending, accept frame = false) (live : link.live = true)
      (sound : breakdown = none) (split : arrived = before ++ found :: after)
      (accepted : accept found = true) (passed : ∀ frame ∈ before, accept frame = false) :
      Takes accept ended breakdown link arrived (some (.frame found))
        { link with
          pending := link.pending ++ before
          inbox := ⟨after.map .frame, link.inbox.tail⟩ }
  | ended (refused : ∀ frame ∈ link.pending ++ arrived, accept frame = false)
      (live : link.live = true) (sound : breakdown = none) (finished : ended = true) :
      Takes accept ended breakdown link arrived (some .gone)
        { link with pending := link.pending ++ arrived, live := false, inbox := .empty }
  | waiting (refused : ∀ frame ∈ link.pending ++ arrived, accept frame = false)
      (live : link.live = true) (sound : breakdown = none) (going : ended = false) :
      Takes accept ended breakdown link arrived none
        { link with pending := link.pending ++ arrived, inbox := ⟨[], link.inbox.tail⟩ }

theorem readOn_refused {accept : Frame → Bool} {frames : List Frame}
    (refused : ∀ frame ∈ frames, accept frame = false) (ended : Bool) (link : Link)
    (rest : List Arrival) :
    readOn accept ended link (frames.map .frame ++ rest) =
      readOn accept ended { link with pending := link.pending ++ frames } rest := by
  induction frames generalizing link with
  | nil => simp
  | cons frame frames ih =>
    obtain ⟨first, others⟩ := List.forall_mem_cons.mp refused
    rw [List.map_cons, List.cons_append, readOn, if_neg (by simp [first]), ih others]
    simp

theorem readOn_accepted {accept : Frame → Bool} {before : List Frame} {found : Frame}
    (passed : ∀ frame ∈ before, accept frame = false) (accepted : accept found = true)
    (ended : Bool) (link : Link) (after : List Arrival) :
    readOn accept ended link (before.map .frame ++ .frame found :: after) = (some (.frame found),
      { link with pending := link.pending ++ before, inbox := ⟨after, link.inbox.tail⟩ }) := by
  rw [readOn_refused passed, readOn, if_pos accepted]

theorem readOn_frames (accept : Frame → Bool) (ended : Bool) (link : Link) (frames : List Frame) :
    (∃ before found after, frames = before ++ found :: after ∧ accept found = true ∧
      (∀ frame ∈ before, accept frame = false) ∧
      readOn accept ended link (frames.map .frame) = (some (.frame found),
        { link with
          pending := link.pending ++ before
          inbox := ⟨after.map .frame, link.inbox.tail⟩ })) ∨
    ((∀ frame ∈ frames, accept frame = false) ∧
      readOn accept ended link (frames.map .frame) =
        if ended then
          (some .gone,
            { link with pending := link.pending ++ frames, live := false, inbox := .empty })
        else (none,
          { link with pending := link.pending ++ frames, inbox := ⟨[], link.inbox.tail⟩ })) := by
  cases hr : removeFirst? accept frames with
  | none =>
    have refused := removeFirst_eq_none hr
    have reads := readOn_refused refused ended link []
    rw [List.append_nil] at reads
    exact .inr ⟨refused, by rw [reads]; rfl⟩
  | some result =>
    obtain ⟨before, after, rfl, -, accepted, passed⟩ := removeFirst_eq_some hr
    have reads := readOn_accepted passed accepted ended link (after.map .frame)
    refine .inl ⟨before, result.1, after, rfl, accepted, passed, ?_⟩
    rw [List.map_append, List.map_cons, reads]

theorem Holds.takes {link : Link} {arrived : List Frame} (h : link.Holds arrived)
    (accept : Frame → Bool) (ended : Bool) (breakdown : Option FaultKind) :
    Takes accept ended breakdown link arrived (link.take accept ended breakdown).1
      (link.take accept ended breakdown).2 := by
  unfold take
  split
  · rename_i found rest hr
    obtain ⟨before, after, hs, rfl, accepted, passed⟩ := removeFirst_eq_some hr
    exact .kept hs accepted passed
  · rename_i hr
    have refused := removeFirst_eq_none hr
    cases live : link.live with
    | false => exact .dead refused live
    | true =>
      cases breakdown with
      | some kind => exact .broken refused live rfl
      | none =>
        simp only [Bool.not_true, Bool.false_eq_true, if_false]
        rw [h]
        rcases readOn_frames accept ended link arrived with
          ⟨before, found, after, hs, accepted, passed, hr⟩ | ⟨hrest, hr⟩
        · rw [hr]
          exact .arrived refused live rfl hs accepted passed
        · have none_accepted : ∀ frame ∈ link.pending ++ arrived, accept frame = false := by
            intro frame hm
            rcases List.mem_append.mp hm with hm | hm
            · exact refused frame hm
            · exact hrest frame hm
          rw [hr]
          cases ended with
          | true => exact .ended none_accepted live rfl rfl
          | false => exact .waiting none_accepted live rfl rfl

/-- The ways in which sending a frame goes, and the bytes that go out. -/
inductive Sends (frame : Frame) (reception : Reception) (link : Link) :
    Sent → Link → Option (List UInt8) → Prop where
  | dead (dead : link.live = false) : Sends frame reception link .gone link none
  | oversized {error : ComponentError} (live : link.live = true)
      (oversized : frame.packet = .error error) :
      Sends frame reception link (.failed error) link none
  | delivered {bytes : List UInt8} (live : link.live = true) (fits : frame.packet = .ok bytes)
      (accepted : reception = .accepted) : Sends frame reception link .delivered link (some bytes)
  | lost {kind : FaultKind} (live : link.live = true) (refused : reception = .refused kind)
      (disconnect : kind.isDisconnect = true) : Sends frame reception link .gone link.close none
  | broken {kind : FaultKind} (live : link.live = true) (refused : reception = .refused kind)
      (other : kind.isDisconnect = false) :
      Sends frame reception link (.failed (.transfer (.ofKind kind))) link none

theorem send_sends (frame : Frame) (reception : Reception) (link : Link) :
    match link.send frame reception with
    | (.delivered, own, bytes) => Sends frame reception link .delivered own (some bytes)
    | (sent, own, _) => Sends frame reception link sent own none := by
  unfold send
  cases live : link.live with
  | false => exact .dead live
  | true =>
    simp only [Bool.not_true, Bool.false_eq_true, if_false]
    cases fits : frame.packet with
    | error error => exact .oversized live fits
    | ok bytes =>
      cases reception with
      | accepted => exact .delivered live fits rfl
      | refused kind =>
        by_cases disconnect : kind.isDisconnect = true
        · simp only [disconnect, if_true]
          exact .lost live rfl disconnect
        · simp only [disconnect]
          exact .broken live rfl (by simpa using disconnect)

def gain : Option (List UInt8) → Link → Link
  | some bytes, link => link.receive bytes
  | none, link => link

@[simp] theorem receive_peer (bytes : List UInt8) (link : Link) :
    (link.receive bytes).peer = link.peer := by
  unfold receive
  split <;> rfl

@[simp] theorem receive_live (bytes : List UInt8) (link : Link) :
    (link.receive bytes).live = link.live := by
  unfold receive
  split <;> rfl

@[simp] theorem receive_pending (bytes : List UInt8) (link : Link) :
    (link.receive bytes).pending = link.pending := by
  unfold receive
  split <;> rfl

@[simp] theorem gain_live (carried : Option (List UInt8)) (link : Link) :
    (link.gain carried).live = link.live := by
  cases carried with
  | none => rfl
  | some bytes => exact receive_live bytes link

theorem receive_dead {link : Link} (dead : link.live = false) (bytes : List UInt8) :
    link.receive bytes = link := by
  simp [receive, dead]

theorem Takes.peer_eq {accept : Frame → Bool} {ended : Bool} {breakdown : Option FaultKind}
    {link after : Link} {arrived : List Frame} {taken : Option Taken}
    (h : Takes accept ended breakdown link arrived taken after) : after.peer = link.peer := by
  cases h with
  | broken =>
    unfold failReading
    split <;> rfl
  | kept | dead | arrived | ended | waiting => rfl

theorem Sends.peer_eq {frame : Frame} {reception : Reception} {link after : Link} {sent : Sent}
    {bytes : Option (List UInt8)} (h : Sends frame reception link sent after bytes) :
    after.peer = link.peer := by
  cases h <;> rfl

theorem failReading_frames (kind : FaultKind) (link : Link) :
    (link.failReading kind).1.frames = [] := by
  unfold failReading
  split <;> rfl

theorem Takes.live_eq {accept : Frame → Bool} {ended : Bool} {breakdown : Option FaultKind}
    {link after : Link} {arrived : List Frame} {taken : Option Taken}
    (h : Takes accept ended breakdown link arrived taken after) (live : after.live = true) :
    link.live = true ∧ after.inbox.tail = link.inbox.tail := by
  cases h with
  | @broken kind =>
    unfold failReading at live ⊢
    split at live
    · cases live
    · rename_i hk
      rw [if_neg hk]
      exact ⟨live, rfl⟩
  | ended => cases live
  | kept | dead | arrived | waiting => exact ⟨live, rfl⟩

theorem Takes.accepted {accept : Frame → Bool} {ended : Bool} {breakdown : Option FaultKind}
    {link after : Link} {arrived : List Frame} {frame : Frame}
    (h : Takes accept ended breakdown link arrived (some (.frame frame)) after) :
    accept frame = true := by
  generalize ht : some (Taken.frame frame) = taken at h
  cases h with
  | kept _ accepted | arrived _ _ _ _ accepted =>
    cases ht
    exact accepted
  | @broken kind =>
    have hf := failReading_frames kind link
    rw [← Option.some.inj ht] at hf
    cases hf
  | dead | ended | waiting => cases ht

theorem Takes.gone {accept : Frame → Bool} {ended : Bool} {breakdown : Option FaultKind}
    {link after : Link} {arrived : List Frame}
    (h : Takes accept ended breakdown link arrived (some .gone) after) : after.live = false := by
  generalize ht : some Taken.gone = taken at h
  cases h with
  | dead _ dead => exact dead
  | ended => rfl
  | broken =>
    unfold failReading at ht ⊢
    split at ht
    · rename_i hk
      rw [if_pos hk]
      rfl
    · cases ht
  | kept | arrived | waiting => cases ht

theorem Sends.live_eq {frame : Frame} {reception : Reception} {link after : Link} {sent : Sent}
    {bytes : Option (List UInt8)} (h : Sends frame reception link sent after bytes)
    (live : after.live = true) : after = link := by
  cases h with
  | lost => cases live
  | dead | oversized | delivered | broken => rfl

theorem Sends.gone {frame : Frame} {reception : Reception} {link after : Link}
    {bytes : Option (List UInt8)} (h : Sends frame reception link .gone after bytes) :
    after.live = false := by
  cases h with
  | dead dead => exact dead
  | lost => rfl

theorem receive_packet {frame : Frame} {bytes : List UInt8} {link : Link} {arrived : List Frame}
    (fits : frame.packet = .ok bytes) (live : link.live = true) (h : link.Holds arrived)
    (whole : link.inbox.tail = []) :
    (link.receive bytes).Holds (arrived ++ [frame]) ∧ (link.receive bytes).inbox.tail = [] := by
  have hr : link.receive bytes = { link with inbox := link.inbox.push bytes } := by
    simp [receive, live]
  unfold Holds at h ⊢
  rw [hr, Inbox.push_packet fits link.inbox whole, h]
  simp

theorem receive_part {frame : Frame} {bytes : List UInt8} {link : Link} {arrived : List Frame}
    (fits : frame.packet = .ok bytes) (written : Nat) (part : written < bytes.length)
    (h : link.Holds arrived) (whole : link.live = true → link.inbox.tail = []) :
    (link.receive (bytes.take written)).Holds arrived := by
  cases live : link.live with
  | false => rwa [receive_dead live]
  | true =>
    have hr : link.receive (bytes.take written) =
        { link with inbox := link.inbox.push (bytes.take written) } := by
      simp [receive, live]
    unfold Holds at h ⊢
    rw [hr, ← h]
    exact Inbox.push_part fits written part link.inbox (whole live)

end Link
end FaultDrill
