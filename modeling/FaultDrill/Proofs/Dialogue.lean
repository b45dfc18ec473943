import FaultDrill.Proofs.Link
set_option autoImplicit false

/-!
# Dialogues

A connection whose two sides speak in a fixed order. How far each side is, and whether it still is
in the conversation, says what is under way between them: nothing is kept, what has arrived is
what the other has said since, and no side is ahead of what it has heard.
-/
namespace FaultDrill

inductive Side where
  | hub
  | spoke
  deriving DecidableEq

namespace Side

def other : Side → Side
  | hub => spoke
  | spoke => hub

@[simp] theorem other_other (side : Side) : side.other.other = side := by cases side <;> rfl

theorem other_ne (side : Side) : side.other ≠ side := by cases side <;> nofun

end Side

structure Turn where
  speaker : Side
  frame : Frame
  deriving DecidableEq

abbrev Dialogue : Type := List Turn

/-- Whether a side takes part, has found the other gone, or has closed its end itself. -/
inductive Status where
  | engaged
  | lost
  | shut
  deriving DecidableEq

/-- How many turns a side has behind it, and its status. -/
structure Standing where
  turn : Nat
  status : Status
  deriving DecidableEq

namespace Standing

def start : Standing := ⟨0, .engaged⟩

def advance (s : Standing) : Standing := { s with turn := s.turn + 1 }

def lose (s : Standing) : Standing :=
  { s with status := if s.status = .engaged then .lost else s.status }

def close (s : Standing) : Standing :=
  { s with status := if s.status = .engaged then .shut else s.status }

theorem close_lost {s : Standing} (h : s.status = .lost) : s.close.status = .lost := by
  simp [close, h]

theorem unlost {s : Standing} (h : s.close.status = .shut) : s.status ≠ .lost := by
  intro hl
  rw [close_lost hl] at h
  cases h

end Standing

namespace Dialogue

variable {d : Dialogue} {side me : Side} {i j : Nat} {turn : Turn}

/-- What one side says from one turn on and before another one. -/
def said (d : Dialogue) (side : Side) (i j : Nat) : List Frame :=
  (((d.take j).drop i).filter fun turn => turn.speaker = side).map Turn.frame

theorem said_nil (h : j ≤ i) : d.said side i j = [] := by
  have hd : (d.take j).drop i = [] := List.drop_eq_nil_of_le (by rw [List.length_take]; omega)
  rw [said, hd]
  rfl

theorem said_first (ht : d[i]? = some turn) (h : i < j) :
    d.said side i j =
      (if turn.speaker = side then [turn.frame] else []) ++ d.said side (i + 1) j := by
  obtain ⟨hi, rfl⟩ := List.getElem?_eq_some_iff.mp ht
  have hd : (d.take j).drop i = d[i] :: (d.take j).drop (i + 1) := by
    rw [List.drop_eq_getElem_cons (by rw [List.length_take]; omega), List.getElem_take]
  rw [said, hd, List.filter_cons]
  by_cases hs : d[i].speaker = side <;> simp [hs, said]

theorem said_last (ht : d[j]? = some turn) (h : i ≤ j) :
    d.said side i (j + 1) =
      d.said side i j ++ if turn.speaker = side then [turn.frame] else [] := by
  obtain ⟨hj, rfl⟩ := List.getElem?_eq_some_iff.mp ht
  have hd : (d.take (j + 1)).drop i = (d.take j).drop i ++ [d[j]] := by
    rw [List.take_succ_eq_append_getElem hj, List.drop_append_of_le_length
      (by rw [List.length_take]; omega)]
  rw [said, hd, List.filter_append, List.map_append]
  by_cases hs : d[j].speaker = side <;> simp [hs, said]

theorem said_skip_first (ht : d[i]? = some turn) (hs : turn.speaker ≠ side) :
    d.said side (i + 1) j = d.said side i j := by
  by_cases h : i < j
  · rw [said_first ht h, if_neg hs, List.nil_append]
  · rw [said_nil (by omega), said_nil (by omega)]

theorem said_skip_last (ht : d[j]? = some turn) (hs : turn.speaker ≠ side) :
    d.said side i (j + 1) = d.said side i j := by
  by_cases h : i ≤ j
  · rw [said_last ht h, if_neg hs, List.append_nil]
  · rw [said_nil (by omega), said_nil (by omega)]

/-- How the end that one side holds agrees with how far both sides are. -/
structure Holds (d : Dialogue) (me : Side) (mine theirs : Standing) (link : Link) : Prop where
  live : link.live = true ↔ mine.status = .engaged
  pending : link.pending = []
  heard : ∀ i turn, i < mine.turn → d[i]? = some turn → turn.speaker = me.other → i < theirs.turn
  arrivals : mine.status = .engaged → link.Holds (d.said me.other mine.turn theirs.turn)
  whole : mine.status = .engaged → theirs.status = .engaged → link.inbox.tail = []
  lost : mine.status = .lost → theirs.status = .shut ∧ theirs.turn ≤ mine.turn

/-- The two ends of a connection. -/
structure Joined (d : Dialogue) (me : Side) (mine theirs : Standing) (own peer : Link) :
    Prop where
  own : d.Holds me mine theirs own
  peer : d.Holds me.other theirs mine peer

namespace Joined

variable {mine theirs : Standing} {own peer : Link}

theorem symm (h : d.Joined me mine theirs own peer) :
    d.Joined me.other theirs mine peer own :=
  ⟨h.peer, by rw [Side.other_other]; exact h.own⟩

theorem start (me : Side) (a b : Rank) :
    d.Joined me .start .start (.opened a) (.opened b) :=
  ⟨⟨⟨fun _ => rfl, fun _ => rfl⟩, rfl, fun _ _ hi => absurd hi (Nat.not_lt_zero _),
      fun _ => by rw [said_nil (Nat.le_refl _)]; rfl, fun _ _ => rfl, nofun⟩,
    ⟨⟨fun _ => rfl, fun _ => rfl⟩, rfl, fun _ _ hi => absurd hi (Nat.not_lt_zero _),
      fun _ => by rw [said_nil (Nat.le_refl _)]; rfl, fun _ _ => rfl, nofun⟩⟩

theorem not_ahead (h : d.Joined me mine theirs own peer) (ht : d[mine.turn]? = some turn)
    (hs : turn.speaker = me) : theirs.turn ≤ mine.turn := by
  refine Nat.le_of_not_lt fun hlt => ?_
  have hlt' := h.peer.heard mine.turn turn hlt ht (by rw [hs, Side.other_other])
  exact absurd hlt' (Nat.lt_irrefl _)

theorem shut_of_closed (h : d.Joined me mine theirs own peer) (engaged : mine.status = .engaged)
    (closed : theirs.status ≠ .engaged) : theirs.status = .shut := by
  cases hs : theirs.status with
  | engaged => exact absurd hs closed
  | shut => rfl
  | lost =>
    have hshut := (h.peer.lost hs).1
    rw [engaged] at hshut
    cases hshut

theorem lose (h : d.Joined me mine theirs own peer) (engaged : mine.status = .engaged)
    (closed : theirs.status ≠ .engaged) (behind : theirs.turn ≤ mine.turn) {own' : Link}
    (dead : own'.live = false) (pending : own'.pending = []) :
    d.Joined me mine.lose theirs own' peer := by
  have hl : mine.lose.status = .lost := if_pos engaged
  refine ⟨⟨?_, pending, h.own.heard, ?_, ?_, fun _ => ⟨h.shut_of_closed engaged closed, behind⟩⟩,
    ⟨h.peer.live, h.peer.pending, h.peer.heard, h.peer.arrivals, ?_, ?_⟩⟩
  · rw [dead, hl]
    exact ⟨nofun, nofun⟩
  · rw [hl]
    exact nofun
  · rw [hl]
    exact nofun
  · rw [hl]
    exact nofun
  · intro hlost
    have hshut := (h.peer.lost hlost).1
    rw [engaged] at hshut
    cases hshut

theorem close (h : d.Joined me mine theirs own peer) :
    d.Joined me mine.close theirs own.close peer := by
  have hne : mine.close.status ≠ .engaged := by
    cases hs : mine.status <;> simp [Standing.close, hs]
  refine ⟨⟨⟨nofun, fun he => absurd he hne⟩, h.own.pending, h.own.heard,
    fun he => absurd he hne, fun he => absurd he hne, fun hlost => ?_⟩,
    ⟨h.peer.live, h.peer.pending, h.peer.heard, h.peer.arrivals, fun _ he => absurd he hne,
      fun hlost => ?_⟩⟩
  · have hl : mine.status = .lost := by
      cases hs : mine.status <;> simp [Standing.close, hs] at hlost ⊢
    exact h.own.lost hl
  · have hs := h.peer.lost hlost
    exact ⟨by simp [Standing.close, hs.1], hs.2⟩

theorem send (h : d.Joined me mine theirs own peer) (engaged : mine.status = .engaged)
    (ht : d[mine.turn]? = some turn) (hs : turn.speaker = me) {bytes : List UInt8}
    (fits : turn.frame.packet = .ok bytes) :
    d.Joined me mine.advance theirs own (peer.receive bytes) := by
  have hother : turn.speaker ≠ me.other := by
    rw [hs]
    exact (Side.other_ne me).symm
  have behind := h.not_ahead ht hs
  refine ⟨⟨h.own.live, h.own.pending, ?_, ?_, h.own.whole, ?_⟩,
    ⟨?_, ?_, ?_, ?_, ?_, ?_⟩⟩
  · intro i turn' hi ht' hs'
    rcases Nat.lt_succ_iff_lt_or_eq.mp hi with hi | rfl
    · exact h.own.heard i turn' hi ht' hs'
    · rw [ht] at ht'
      cases ht'
      exact absurd hs' hother
  · intro _
    change own.Holds (d.said me.other (mine.turn + 1) theirs.turn)
    rw [said_skip_first ht hother]
    exact h.own.arrivals engaged
  · intro hlost
    rw [Standing.advance, engaged] at hlost
    cases hlost
  · rw [Link.receive_live]
    exact h.peer.live
  · rw [Link.receive_pending]
    exact h.peer.pending
  · intro i turn' hi ht' hs'
    exact Nat.lt_succ_of_lt (h.peer.heard i turn' hi ht' hs')
  · intro he
    have hreceived := Link.receive_packet fits (h.peer.live.mpr he) (h.peer.arrivals he)
      (h.peer.whole he engaged)
    change (peer.receive bytes).Holds (d.said me.other.other theirs.turn (mine.turn + 1))
    rw [said_last ht behind, Side.other_other, if_pos hs]
    rw [Side.other_other] at hreceived
    exact hreceived.1
  · intro he _
    exact (Link.receive_packet fits (h.peer.live.mpr he) (h.peer.arrivals he)
      (h.peer.whole he engaged)).2
  · intro hlost
    have hshut := (h.peer.lost hlost).1
    rw [engaged] at hshut
    cases hshut

theorem arrived (h : d.Joined me mine theirs own peer) (engaged : mine.status = .engaged)
    (ht : d[mine.turn]? = some turn) (hs : turn.speaker = me.other) {arrived : List Frame}
    (holds : own.Holds arrived) :
    (arrived = [] ∧ theirs.turn ≤ mine.turn) ∨ (mine.turn < theirs.turn ∧
      arrived = turn.frame :: d.said me.other (mine.turn + 1) theirs.turn) := by
  obtain rfl := holds.unique (h.own.arrivals engaged)
  rcases Nat.lt_or_ge mine.turn theirs.turn with hlt | hle
  · refine .inr ⟨hlt, ?_⟩
    rw [said_first ht hlt, if_pos hs]
    rfl
  · exact .inl ⟨said_nil hle, hle⟩

theorem take (h : d.Joined me mine theirs own peer) (engaged : mine.status = .engaged)
    (ht : d[mine.turn]? = some turn) (hs : turn.speaker = me.other)
    (said : mine.turn < theirs.turn) {own' : Link} (live : own'.live = true)
    (pending : own'.pending = []) (tail : own'.inbox.tail = own.inbox.tail)
    (holds : own'.Holds (d.said me.other (mine.turn + 1) theirs.turn)) :
    d.Joined me mine.advance theirs own' peer := by
  have hme : turn.speaker ≠ me.other.other := by
    rw [hs, Side.other_other]
    exact Side.other_ne me
  refine ⟨⟨⟨fun _ => engaged, fun _ => live⟩, pending, ?_, fun _ => holds, ?_, ?_⟩,
    ⟨h.peer.live, h.peer.pending, ?_, ?_, h.peer.whole, ?_⟩⟩
  · intro i turn' hi ht' hs'
    rcases Nat.lt_succ_iff_lt_or_eq.mp hi with hi | rfl
    · exact h.own.heard i turn' hi ht' hs'
    · exact said
  · intro _ he
    rw [tail]
    exact h.own.whole engaged he
  · intro hlost
    rw [Standing.advance, engaged] at hlost
    cases hlost
  · intro i turn' hi ht' hs'
    exact Nat.lt_succ_of_lt (h.peer.heard i turn' hi ht' hs')
  · intro he
    change peer.Holds (d.said me.other.other theirs.turn (mine.turn + 1))
    rw [said_skip_last ht hme]
    exact h.peer.arrivals he
  · intro hlost
    have hshut := (h.peer.lost hlost).1
    rw [engaged] at hshut
    cases hshut

theorem part (h : d.Joined me mine theirs own peer) {frame : Frame} {bytes : List UInt8}
    (fits : frame.packet = .ok bytes) {written : Nat} (part : written < bytes.length)
    (opened : own.live = true) :
    d.Joined me mine.close theirs own.close (peer.receive (bytes.take written)) := by
  have hc := h.close
  have engaged := h.own.live.mp opened
  have hne : mine.close.status ≠ .engaged := by simp [Standing.close, engaged]
  refine ⟨hc.own, ⟨?_, ?_, hc.peer.heard, fun he => ?_, fun _ he => absurd he hne, hc.peer.lost⟩⟩
  · rw [Link.receive_live]
    exact h.peer.live
  · rw [Link.receive_pending]
    exact h.peer.pending
  · exact Link.receive_part fits written part (h.peer.arrivals he)
      fun live => h.peer.whole he engaged

end Joined
end Dialogue
end FaultDrill
