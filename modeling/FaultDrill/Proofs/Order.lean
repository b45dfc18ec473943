import FaultDrill.Proofs.Queue
set_option autoImplicit false

namespace FaultDrill

namespace Arrival

theorem next_append {bytes : List UInt8} {arrival : Arrival}
    {rest : { rest : List UInt8 // rest.length < bytes.length }}
    (h : next? bytes = some (arrival, rest)) (more : List UInt8) :
    ∃ short, next? (bytes ++ more) = some (arrival, ⟨rest.1 ++ more, short⟩) := by
  rw [next?] at h
  split at h
  · cases h
  · rename_i long
    have header : (bytes ++ more).take 4 = bytes.take 4 :=
      List.take_append_of_le_length (by omega)
    have body : (bytes ++ more).drop 4 = bytes.drop 4 ++ more :=
      List.drop_append_of_le_length (by omega)
    have grown : (bytes ++ more).length = bytes.length + more.length := List.length_append
    rw [next?, dif_neg (by omega)]
    simp only [header, body] at h ⊢
    split at h
    · rename_i large
      cases h
      refine ⟨by simp only [List.length_append, List.length_drop]; omega, ?_⟩
      rw [if_pos large]
    · rename_i fits
      split at h
      · cases h
      · rename_i whole
        cases h
        have after : (bytes ++ more).drop (4 + Wire.ofLittleEndian (bytes.take 4)) =
            bytes.drop (4 + Wire.ofLittleEndian (bytes.take 4)) ++ more :=
          List.drop_append_of_le_length (by omega)
        have inside : (bytes.drop 4 ++ more).take (Wire.ofLittleEndian (bytes.take 4)) =
            (bytes.drop 4).take (Wire.ofLittleEndian (bytes.take 4)) :=
          List.take_append_of_le_length (by rw [List.length_drop]; omega)
        refine ⟨by simp only [List.length_append, List.length_drop]; omega, ?_⟩
        rw [if_neg fits, if_neg (by omega)]
        simp only [inside, after]

theorem cut_append (bytes more : List UInt8) :
    cut (bytes ++ more) = ((cut bytes).1 ++ (cut ((cut bytes).2 ++ more)).1,
      (cut ((cut bytes).2 ++ more)).2) := by
  induction hn : bytes.length using Nat.strongRecOn generalizing bytes with
  | ind n ih =>
    cases first : next? bytes with
    | none =>
      have uncut : cut bytes = ([], bytes) := by rw [cut, first]
      rw [uncut]
      rfl
    | some result =>
      obtain ⟨arrival, rest⟩ := result
      obtain ⟨short, grown⟩ := next_append first more
      have here : cut bytes = (arrival :: (cut rest.1).1, (cut rest.1).2) := by rw [cut, first]
      have there : cut (bytes ++ more) =
          (arrival :: (cut (rest.1 ++ more)).1, (cut (rest.1 ++ more)).2) := by rw [cut, grown]
      rw [here, there, ih rest.1.length (hn ▸ rest.2) rest.1 rfl]
      rfl

def whole : List Arrival → List Frame
  | [] => []
  | .frame first :: rest => first :: whole rest
  | .fault _ :: rest => whole rest

theorem whole_append (arrivals later : List Arrival) :
    whole (arrivals ++ later) = whole arrivals ++ whole later := by
  induction arrivals with
  | nil => rfl
  | cons arrival rest ih =>
    cases arrival with
    | fault error => exact ih
    | frame first => exact congrArg (first :: ·) ih

end Arrival

theorem Inbox.push_push (inbox : Inbox) (bytes more : List UInt8) :
    (inbox.push bytes).push more = inbox.push (bytes ++ more) := by
  have parts := Arrival.cut_append (inbox.tail ++ bytes) more
  rw [List.append_assoc] at parts
  simp only [push, parts, List.append_assoc]

namespace Link

/-- The frames that are kept and those that are still to be read. -/
def standing (link : Link) : List Frame := link.pending ++ Arrival.whole link.incoming

theorem receive_receive (link : Link) (bytes more : List UInt8) :
    (link.receive bytes).receive more = link.receive (bytes ++ more) := by
  cases live : link.live with
  | true => simp [receive, live, Inbox.push_push]
  | false => simp [receive, live]

theorem standing_receive {link : Link} (live : link.live = true) (bytes : List UInt8) :
    (link.receive bytes).standing =
      link.standing ++ Arrival.whole (Arrival.cut (link.inbox.tail ++ bytes)).1 := by
  simp [standing, receive, incoming, live, Inbox.push, Arrival.whole_append]

theorem standing_grows (link : Link) (bytes : List UInt8) :
    link.standing.Sublist (link.receive bytes).standing := by
  cases live : link.live with
  | true =>
    rw [standing_receive live]
    exact List.sublist_append_left _ _
  | false => exact (receive_dead live bytes).symm ▸ .refl link.standing

/-- Of what stood at an end some may be gone, and the part of a frame there is as it was. -/
structure Dwindles (link own : Link) : Prop where
  standing : own.standing.Sublist link.standing
  open_before : own.live = true → link.live = true ∧ own.inbox.tail = link.inbox.tail

/-- Taking from an end before more arrives leaves no more than taking afterwards could. -/
theorem Dwindles.receive {link own : Link} (h : Dwindles link own) (bytes : List UInt8) :
    (own.receive bytes).standing.Sublist (link.receive bytes).standing := by
  cases live : own.live with
  | true =>
    obtain ⟨was, tail⟩ := h.open_before live
    rw [standing_receive live, standing_receive was, tail]
    exact h.standing.append_right _
  | false =>
    rw [receive_dead live]
    exact h.standing.trans (link.standing_grows bytes)

theorem Dwindles.refl (link : Link) : Dwindles link link := ⟨.refl _, fun live => ⟨live, rfl⟩⟩

theorem dwindles_close (link : Link) : Dwindles link link.close :=
  ⟨by simp [standing, close, incoming, Arrival.whole], nofun⟩

theorem Sends.dwindles {frame : Frame} {reception : Reception} {link own : Link} {sent : Sent}
    {carried : Option (List UInt8)} (h : Sends frame reception link sent own carried) :
    Dwindles link own := by
  cases h with
  | lost => exact dwindles_close link
  | dead | oversized | delivered | broken => exact .refl link

theorem readOn_dwindles {accept : Frame → Bool} (ended : Bool) {link : Link}
    (live : link.live = true) (arrivals : List Arrival) :
    (readOn accept ended link arrivals).2.standing.Sublist
        (link.pending ++ Arrival.whole arrivals) ∧
      ((readOn accept ended link arrivals).2.live = true →
        (readOn accept ended link arrivals).2.inbox.tail = link.inbox.tail) := by
  induction arrivals generalizing link with
  | nil =>
    cases ended with
    | true => exact ⟨by simp [readOn, standing, close, incoming, Arrival.whole], nofun⟩
    | false => exact ⟨by simp [readOn, standing, incoming, live], fun _ => rfl⟩
  | cons arrival rest ih =>
    cases arrival with
    | fault error =>
      exact ⟨by simp [readOn, standing, incoming, live, Arrival.whole], fun _ => rfl⟩
    | frame first =>
      unfold readOn
      split
      · refine ⟨?_, fun _ => rfl⟩
        simp only [standing, incoming, live, if_true]
        exact (List.sublist_cons_self first _).append_left _
      · obtain ⟨fewer, tail⟩ := @ih { link with pending := link.pending ++ [first] } live
        rw [List.append_assoc] at fewer
        exact ⟨fewer, tail⟩

theorem dwindles_take (accept : Frame → Bool) (ended : Bool) (breakdown : Option FaultKind)
    (link : Link) : Dwindles link (link.take accept ended breakdown).2 := by
  cases unkept : removeFirst? accept link.pending with
  | some result =>
    obtain ⟨before, after, split, others, -⟩ := removeFirst_eq_some unkept
    rw [take_kept unkept, others]
    refine ⟨List.Sublist.append_right ?_ _, fun live => ⟨live, rfl⟩⟩
    rw [split]
    exact (List.sublist_cons_self _ _).append_left _
  | none =>
    cases live : link.live with
    | false =>
      rw [take_dead unkept live]
      exact .refl link
    | true =>
      cases breakdown with
      | none =>
        obtain ⟨fewer, tail⟩ := @readOn_dwindles accept ended link live link.inbox.arrivals
        rw [← incoming_live live, ← standing, incoming_live live] at fewer
        rw [take_reads unkept live]
        exact ⟨fewer, fun stays => ⟨live, tail stays⟩⟩
      | some kind =>
        rw [take_breaks unkept live]
        split
        · exact dwindles_close link
        · exact .refl link

end Link
end FaultDrill
