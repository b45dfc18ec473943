import FaultDrill.Proofs.Packet
import FaultDrill.Proofs.Stream
set_option autoImplicit false

namespace FaultDrill

/-- A sink that takes so many bytes and then fails every write. -/
def Sink.ofRoom (room : Nat) (fault : FaultKind) : Sink := ⟨[], some room, fault, none⟩

namespace Frame
open Wire

def IsSmall (frame : Frame) : Prop := (encode frame).length ≤ 1048576

instance (frame : Frame) : Decidable frame.IsSmall :=
  inferInstanceAs (Decidable ((encode frame).length ≤ 1048576))

def wire (frame : Frame) : List UInt8 := littleEndian 4 (encode frame).length ++ encode frame

def smallOnes (frames : List Frame) : List Frame := frames.filter fun frame => frame.IsSmall

def extent (frames : List Frame) : Nat := (frames.flatMap wire).length

/-- The frames whose writing succeeds when all of these are written one after the other. -/
def written (sink : Sink) (frames : List Frame) : List Frame :=
  (frames.zip (writeAll sink frames).2).filterMap fun
    | (frame, .ok ()) => some frame
    | (_, .error _) => none

theorem length_wire (frame : Frame) : frame.wire.length = 4 + (encode frame).length := by
  rw [wire, List.length_append, length_littleEndian]

theorem IsSmall.not_large {frame : Frame} (small : frame.IsSmall) :
    ¬(encode frame).length > maxLength := Nat.not_lt.mpr small

theorem packet_small {frame : Frame} (small : frame.IsSmall) : frame.packet = .ok frame.wire :=
  if_neg small.not_large

theorem extent_cons (frame : Frame) (rest : List Frame) :
    extent (frame :: rest) = frame.wire.length + extent rest := by
  rw [extent, List.flatMap_cons, List.length_append]
  rfl

theorem smallOnes_cons (frame : Frame) (rest : List Frame) : smallOnes (frame :: rest) =
    if frame.IsSmall then frame :: smallOnes rest else smallOnes rest := by
  rw [smallOnes, List.filter_cons]
  simp only [decide_eq_true_eq]
  rfl

section Write

variable (taken : List UInt8) (room : Nat) (fault : FaultKind) {frame : Frame}

theorem write_large (sink : Sink) (large : ¬frame.IsSmall) :
    write sink frame = (sink, .error (tooLarge (encode frame).length)) := by
  rw [write]
  exact if_pos (Nat.not_le.mp large)

theorem write_small (small : frame.IsSmall) (fits : frame.wire.length ≤ room) :
    write ⟨taken, some room, fault, none⟩ frame =
      (⟨taken ++ frame.wire, some (room - frame.wire.length), fault, none⟩, .ok ()) := by
  rw [length_wire] at fits
  have hheader : (littleEndian 4 (encode frame).length).length ≤ room := by
    rw [length_littleEndian]
    omega
  have hbody : (encode frame).length ≤ room - (littleEndian 4 (encode frame).length).length := by
    rw [length_littleEndian]
    omega
  rw [write]
  simp only [if_neg small.not_large, Sink.write, if_pos hheader, if_pos hbody]
  rw [length_wire, length_littleEndian, Nat.sub_sub, wire, List.append_assoc]
  rfl

theorem write_cut (small : frame.IsSmall) (cut : room < frame.wire.length) :
    write ⟨taken, some room, fault, none⟩ frame =
      (⟨taken ++ frame.wire.take room, some 0, fault, none⟩,
        .error (.transfer (.ofKind fault))) := by
  rw [length_wire] at cut
  rw [write]
  simp only [if_neg small.not_large, Sink.write]
  by_cases hheader : (littleEndian 4 (encode frame).length).length ≤ room
  · have hbody : ¬(encode frame).length ≤ room - (littleEndian 4 (encode frame).length).length := by
      have hfour : (littleEndian 4 (encode frame).length).length = 4 := length_littleEndian ..
      omega
    simp only [if_pos hheader, if_neg hbody]
    rw [wire, List.take_append, List.take_of_length_le hheader, List.append_assoc]
  · simp only [if_neg hheader]
    rw [wire, List.take_append_of_le_length (Nat.le_of_lt (Nat.not_le.mp hheader))]

end Write

theorem writeAll_cons (sink : Sink) (frame : Frame) (rest : List Frame) :
    writeAll sink (frame :: rest) =
      ((writeAll (write sink frame).1 rest).1,
        (write sink frame).2 :: (writeAll (write sink frame).1 rest).2) := rfl

theorem writeAll_large {frame : Frame} (large : ¬frame.IsSmall) (sink : Sink)
    (before after : List Frame) :
    writeAll sink (before ++ frame :: after) =
      ((writeAll sink (before ++ after)).1,
        (writeAll sink (before ++ after)).2.insertIdx before.length
          (.error (tooLarge (encode frame).length))) := by
  induction before generalizing sink with
  | nil =>
    rw [List.nil_append, writeAll_cons, write_large sink large]
    rfl
  | cons first before ih =>
    rw [List.cons_append, writeAll_cons, ih]
    rfl

theorem writeAll_full (taken : List UInt8) (fault : FaultKind) (frames : List Frame) :
    (writeAll ⟨taken, some 0, fault, none⟩ frames).1.taken = taken ∧
      ∀ result ∈ (writeAll ⟨taken, some 0, fault, none⟩ frames).2, result ≠ .ok () := by
  induction frames with
  | nil => exact ⟨rfl, by simp [writeAll]⟩
  | cons frame rest ih =>
    have hwrite : ∃ error, write ⟨taken, some 0, fault, none⟩ frame =
        (⟨taken, some 0, fault, none⟩, .error error) := by
      by_cases small : frame.IsSmall
      · have hcut := write_cut taken 0 fault small (by rw [length_wire]; omega)
        rw [List.take_zero, List.append_nil] at hcut
        exact ⟨_, hcut⟩
      · exact ⟨_, write_large _ small⟩
    obtain ⟨error, hwrite⟩ := hwrite
    rw [writeAll_cons, hwrite]
    exact ⟨ih.1, List.forall_mem_cons.mpr ⟨nofun, ih.2⟩⟩

def fitting (room : Nat) : List Frame → List Frame
  | [] => []
  | frame :: rest =>
    if ¬frame.IsSmall then fitting room rest
    else if frame.wire.length ≤ room then frame :: fitting (room - frame.wire.length) rest
    else []

theorem written_cons (sink : Sink) (frame : Frame) (rest : List Frame) :
    written sink (frame :: rest) =
      match (write sink frame).2 with
      | .ok () => frame :: written (write sink frame).1 rest
      | .error _ => written (write sink frame).1 rest := by
  rw [written, writeAll_cons, List.zip_cons_cons, List.filterMap_cons]
  cases (write sink frame).2 <;> rfl

theorem written_full (taken : List UInt8) (fault : FaultKind) (frames : List Frame) :
    written ⟨taken, some 0, fault, none⟩ frames = [] := by
  refine List.filterMap_eq_nil_iff.mpr fun pair hp => ?_
  obtain ⟨frame, result⟩ := pair
  have hne := (writeAll_full taken fault frames).2 result (List.of_mem_zip hp).2
  cases result with
  | error => rfl
  | ok => exact absurd rfl hne

theorem writeAll_fitting (taken : List UInt8) (room : Nat) (fault : FaultKind)
    (frames : List Frame) :
    written ⟨taken, some room, fault, none⟩ frames = fitting room frames ∧
      ∃ (frame : Frame) (count : Nat), frame.IsSmall ∧ count < frame.wire.length ∧
        (writeAll ⟨taken, some room, fault, none⟩ frames).1.taken =
          taken ++ (fitting room frames).flatMap wire ++ frame.wire.take count := by
  induction frames generalizing taken room with
  | nil =>
    refine ⟨rfl, .barrierEnter, 0, by decide, by decide, ?_⟩
    simp [writeAll, fitting]
  | cons frame rest ih =>
    rw [written_cons, writeAll_cons, fitting]
    by_cases small : frame.IsSmall
    · rw [if_neg (fun large => large small)]
      by_cases fits : frame.wire.length ≤ room
      · obtain ⟨hwritten, other, count, hsmall, hcount, htaken⟩ :=
          ih (taken ++ frame.wire) (room - frame.wire.length)
        rw [if_pos fits, write_small taken room fault small fits]
        refine ⟨congrArg (frame :: ·) hwritten, other, count, hsmall, hcount, ?_⟩
        rw [List.flatMap_cons, htaken]
        simp only [List.append_assoc]
      · rw [if_neg fits, write_cut taken room fault small (Nat.not_le.mp fits)]
        refine ⟨written_full _ _ _, frame, room, small, Nat.not_le.mp fits, ?_⟩
        rw [List.flatMap_nil, List.append_nil]
        exact (writeAll_full _ fault rest).1
    · rw [if_pos small, write_large _ small]
      exact ih taken room

theorem writeAll_ok_iff (taken : List UInt8) (room : Nat) (fault : FaultKind)
    (frames : List Frame) (i : Nat) (frame : Frame) (h : frames[i]? = some frame) :
    (writeAll ⟨taken, some room, fault, none⟩ frames).2[i]? = some (.ok ()) ↔
      frame.IsSmall ∧ extent (smallOnes (frames.take (i + 1))) ≤ room := by
  induction frames generalizing taken room i with
  | nil => cases h
  | cons first rest ih =>
    rw [writeAll_cons, List.take_succ_cons, smallOnes_cons]
    by_cases small : first.IsSmall
    · rw [if_pos small, extent_cons]
      by_cases fits : first.wire.length ≤ room
      · rw [write_small taken room fault small fits]
        cases i with
        | zero =>
          cases h
          simp [small, smallOnes, extent, fits]
        | succ i =>
          rw [List.getElem?_cons_succ] at h ⊢
          rw [ih _ _ i h]
          refine and_congr_right fun _ => ?_
          omega
      · rw [write_cut taken room fault small (Nat.not_le.mp fits)]
        refine iff_of_false (fun hok => ?_) fun hok => by omega
        cases i with
        | zero => cases hok
        | succ i =>
          rw [List.getElem?_cons_succ] at hok
          exact (writeAll_full _ fault rest).2 _ (List.mem_of_getElem? hok) rfl
    · rw [if_neg small, write_large _ small]
      cases i with
      | zero =>
        cases h
        simp [small]
      | succ i =>
        rw [List.getElem?_cons_succ] at h ⊢
        exact ih taken room i h

theorem fitting_small (room : Nat) (frames : List Frame) :
    ∀ frame ∈ fitting room frames, frame.IsSmall := by
  induction frames generalizing room with
  | nil => simp [fitting]
  | cons first rest ih =>
    rw [fitting]
    split
    · exact ih room
    · rename_i small
      split
      · exact List.forall_mem_cons.mpr ⟨Decidable.not_not.mp small, ih _⟩
      · simp

theorem fitting_longest (room : Nat) (frames : List Frame) :
    fitting room frames <+: smallOnes frames ∧ extent (fitting room frames) ≤ room ∧
      ∀ others, others <+: smallOnes frames → extent others ≤ room →
        others <+: fitting room frames := by
  induction frames generalizing room with
  | nil => exact ⟨List.prefix_rfl, Nat.zero_le _, fun _ h _ => h⟩
  | cons first rest ih =>
    rw [fitting, smallOnes_cons]
    by_cases small : first.IsSmall
    · rw [if_neg (fun large => large small), if_pos small]
      by_cases fits : first.wire.length ≤ room
      · obtain ⟨hbeginning, hextent, hlongest⟩ := ih (room - first.wire.length)
        rw [if_pos fits, extent_cons]
        refine ⟨(List.prefix_cons_inj first).mpr hbeginning, by omega, fun others ho he => ?_⟩
        cases others with
        | nil => exact List.nil_prefix
        | cons other others =>
          obtain ⟨rfl, htail⟩ := List.cons_prefix_cons.mp ho
          rw [extent_cons] at he
          exact (List.prefix_cons_inj other).mpr (hlongest others htail (by omega))
      · rw [if_neg fits]
        refine ⟨List.nil_prefix, Nat.zero_le _, fun others ho he => ?_⟩
        cases others with
        | nil => exact List.nil_prefix
        | cons other others =>
          obtain ⟨rfl, -⟩ := List.cons_prefix_cons.mp ho
          rw [extent_cons] at he
          omega
    · rw [if_pos small, if_neg small]
      exact ih room

theorem parse_wire {frame : Frame} (small : frame.IsSmall) (fault : Option FaultKind)
    (rest : List UInt8) : parse fault (frame.wire ++ rest) = (.ok (some frame), rest) := by
  rw [wire, parse_body fault (encode frame) rest small, decoded_eq, ofBody_encode frame small]
  rfl

theorem parseMany_wires (fault : Option FaultKind) {frames : List Frame} {part : List UInt8}
    (small : ∀ frame ∈ frames, frame.IsSmall) (cut : parse fault part = (ending fault, []))
    (count : Nat) :
    (parseMany fault (frames.flatMap wire ++ part) (frames.length + count)).1 =
      frames.map (fun frame => .ok (some frame)) ++ .replicate count (ending fault) := by
  induction frames with
  | nil =>
    cases count with
    | zero => rfl
    | succ count =>
      have hcount : ([] : List Frame).length + (count + 1) = count + 1 := Nat.zero_add _
      rw [hcount, List.flatMap_nil, List.nil_append, parseMany_succ cut, parseMany_nil]
      rfl
  | cons frame rest ih =>
    obtain ⟨hframe, hrest⟩ := List.forall_mem_cons.mp small
    have hcount : (frame :: rest).length + count = rest.length + count + 1 :=
      Nat.add_right_comm ..
    rw [List.flatMap_cons, List.append_assoc, hcount, parseMany_succ (parse_wire hframe fault _),
      ih hrest]
    rfl

/-- From a sink that takes so many bytes, in whatever chunks they are handed on, one reads exactly
the frames whose writing succeeded, and nothing after them. These are the longest beginning, among
the frames that are small enough, for which there is room. A frame that is too large is refused
and disturbs no other one. -/
theorem written_is_read (frames : List Frame) (room : Nat) (fault : FaultKind) :
    (∀ chunks count, chunks.flatten = (writeAll (.ofRoom room fault) frames).1.taken →
      (readMany ⟨chunks, none⟩ ((written (.ofRoom room fault) frames).length + count)).1 =
        (written (.ofRoom room fault) frames).map (fun frame => .ok (some frame)) ++
          .replicate count (.ok none)) ∧
    (written (.ofRoom room fault) frames <+: smallOnes frames ∧
      extent (written (.ofRoom room fault) frames) ≤ room ∧
      ∀ others, others <+: smallOnes frames → extent others ≤ room →
        others <+: written (.ofRoom room fault) frames) ∧
    (∀ i frame, frames[i]? = some frame →
      ((writeAll (.ofRoom room fault) frames).2[i]? = some (.ok ()) ↔
        frame.IsSmall ∧ extent (smallOnes (frames.take (i + 1))) ≤ room)) ∧
    ∀ before frame after, frames = before ++ frame :: after → ¬frame.IsSmall →
      writeAll (.ofRoom room fault) frames =
        ((writeAll (.ofRoom room fault) (before ++ after)).1,
          (writeAll (.ofRoom room fault) (before ++ after)).2.insertIdx before.length
            (.error (.protocol s!"Frame too large: {(encode frame).length} bytes"))) := by
  obtain ⟨hwritten, other, cut, small, hcut, htaken⟩ := writeAll_fitting [] room fault frames
  change written (.ofRoom room fault) frames = _ at hwritten
  refine ⟨fun chunks count hbytes => ?_, ?_, writeAll_ok_iff [] room fault frames, ?_⟩
  · have hpart : parse none (other.wire.take cut) = (ending none, []) := by
      rw [parse_eq_next, Arrival.next_part (packet_small small) cut hcut]
    have hread := (readMany_eq_parseMany ⟨chunks, none⟩ ((fitting room frames).length + count)).1
    rw [Source.bytes, hbytes, Sink.ofRoom, htaken, List.nil_append,
      parseMany_wires none (fitting_small room frames) hpart] at hread
    rw [hwritten]
    exact hread
  · rw [hwritten]
    exact fitting_longest room frames
  · rintro before frame after rfl large
    exact writeAll_large large _ before after

def oversized : Frame := .data 0 (.replicate maxLength 0)

theorem length_oversized : (encode oversized).length = 1048592 := by
  rw [oversized, length_encode_data, List.length_replicate, maxLength_eq]

theorem oversized_large : ¬oversized.IsSmall := by
  rw [IsSmall, length_oversized]
  omega

def cutShort : List Frame := [.barrierEnter, oversized, .join ⟨1⟩, .barrierRelease]

/-- The sink takes the first and the third frame and a part of the last, and hands them on in three
chunks. -/
theorem written_is_read_cut :
    (readMany ⟨[[4, 0, 0, 0, 2], [0, 0, 0, 8, 0, 0, 0, 0, 0, 0, 0, 1], [0, 0, 0, 4, 0, 0, 0, 3]],
        none⟩ 4).1 =
      [.ok (some .barrierEnter), .ok (some (.join ⟨1⟩)), .ok none, .ok none] ∧
    [.barrierEnter, .join ⟨1⟩] <+: written (.ofRoom 25 .brokenPipe) cutShort ∧
    (writeAll (.ofRoom 25 .brokenPipe) cutShort).2[2]? = some (.ok ()) ∧
    writeAll (.ofRoom 25 .brokenPipe) cutShort =
      ((writeAll (.ofRoom 25 .brokenPipe) [.barrierEnter, .join ⟨1⟩, .barrierRelease]).1,
        (writeAll (.ofRoom 25 .brokenPipe)
          [.barrierEnter, .join ⟨1⟩, .barrierRelease]).2.insertIdx 1
            (.error (.protocol "Frame too large: 1048592 bytes"))) := by
  have enter : Frame.barrierEnter.IsSmall := by decide
  obtain ⟨hread, ⟨-, -, hlongest⟩, hok, hlarge⟩ := written_is_read cutShort 25 .brokenPipe
  have hwriting := hlarge [.barrierEnter] oversized [.join ⟨1⟩, .barrierRelease] rfl oversized_large
  rw [length_oversized] at hwriting
  have hwritten : written (.ofRoom 25 .brokenPipe) cutShort = [.barrierEnter, .join ⟨1⟩] := by
    rw [written, hwriting]
    rfl
  refine ⟨?_, ?_, ?_, hwriting⟩
  · have hbytes := hread [[4, 0, 0, 0, 2], [0, 0, 0, 8, 0, 0, 0, 0, 0, 0, 0, 1],
      [0, 0, 0, 4, 0, 0, 0, 3]] 2 (by rw [hwriting]; rfl)
    rw [hwritten] at hbytes
    exact hbytes
  · refine hlongest [.barrierEnter, .join ⟨1⟩] ?_ (by decide)
    rw [cutShort, smallOnes_cons, smallOnes_cons, if_pos enter, if_neg oversized_large]
    decide
  · refine (hok 2 (.join ⟨1⟩) rfl).mpr ⟨by decide, ?_⟩
    change extent (smallOnes (.barrierEnter :: oversized :: [.join ⟨1⟩])) ≤ 25
    rw [smallOnes_cons, smallOnes_cons, if_pos enter, if_neg oversized_large]
    decide

end Frame
end FaultDrill
