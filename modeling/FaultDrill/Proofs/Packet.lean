import FaultDrill.Frame.Inbox
import FaultDrill.Proofs.Wire
set_option autoImplicit false

namespace FaultDrill
open Wire

namespace Frame

theorem length_payload_le (frame : Frame) : frame.payload.length ≤ (encode frame).length := by
  cases frame with
  | data tag payload =>
    change payload.length ≤ (encode (1 : UInt32) ++ encode tag ++
      (littleEndian 8 payload.length ++ payload)).length
    simp only [List.length_append]
    omega
  | broadcast payload =>
    change payload.length ≤ (encode (4 : UInt32) ++
      (littleEndian 8 payload.length ++ payload)).length
    simp only [List.length_append]
    omega
  | join rank => exact Nat.zero_le _
  | barrierEnter => exact Nat.zero_le _
  | barrierRelease => exact Nat.zero_le _

theorem ofBody_encode (frame : Frame) (h : (encode frame).length ≤ maxLength) :
    ofBody (encode frame) = .ok frame := by
  have hp := frame.length_payload_le
  have hm : maxLength < UInt64.size := by decide
  rw [ofBody, (reads_frame frame (by omega)).decode_eq]
  rfl

theorem packet_eq_ok {frame : Frame} {bytes : List UInt8} (h : frame.packet = .ok bytes) :
    (encode frame).length ≤ maxLength ∧
      bytes = littleEndian 4 (encode frame).length ++ encode frame := by
  simp only [packet] at h
  split at h
  · cases h
  · exact ⟨by omega, (Except.ok.inj h).symm⟩

theorem packet_of_le (frame : Frame) (h : (encode frame).length ≤ maxLength) :
    ∃ bytes, frame.packet = .ok bytes := by
  refine ⟨littleEndian 4 (encode frame).length ++ encode frame, ?_⟩
  rw [packet, if_neg (by omega)]

theorem length_encode_data (tag : UInt32) (payload : List UInt8) :
    (encode (data tag payload)).length = 16 + payload.length := by
  change (littleEndian 4 1 ++ littleEndian 4 tag.toNat ++
    (littleEndian 8 payload.length ++ payload)).length = _
  simp only [List.length_append, length_littleEndian]
  omega

theorem length_encode_broadcast (payload : List UInt8) :
    (encode (broadcast payload)).length = 12 + payload.length := by
  change (littleEndian 4 4 ++ (littleEndian 8 payload.length ++ payload)).length = _
  simp only [List.length_append, length_littleEndian]
  omega

theorem packet_ne_error {frame : Frame} (h : (encode frame).length ≤ maxLength)
    (error : ComponentError) : frame.packet ≠ .error error := by
  obtain ⟨bytes, hb⟩ := packet_of_le frame h
  rw [hb]
  exact nofun

end Frame

namespace Arrival

theorem next_packet {frame : Frame} {bytes : List UInt8} (h : frame.packet = .ok bytes) :
    ∃ short, next? bytes = some (.frame frame, ⟨[], short⟩) := by
  obtain ⟨hle, rfl⟩ := Frame.packet_eq_ok h
  have hsize : Frame.maxLength < 256 ^ 4 := by decide
  have htake : (littleEndian 4 (encode frame).length ++ encode frame).take 4 =
      littleEndian 4 (encode frame).length :=
    List.take_left' (length_littleEndian 4 _)
  have hdrop : (littleEndian 4 (encode frame).length ++ encode frame).drop 4 = encode frame :=
    List.drop_left' (length_littleEndian 4 _)
  have hlength : (littleEndian 4 (encode frame).length ++ encode frame).length =
      4 + (encode frame).length := by
    rw [List.length_append, length_littleEndian]
  have hnumber := ofLittleEndian_littleEndian 4 (encode frame).length (by omega)
  generalize littleEndian 4 (encode frame).length ++ encode frame = bytes at *
  have hrest : bytes.drop (4 + (encode frame).length) = [] :=
    List.drop_eq_nil_of_le (by omega)
  refine ⟨by simp only [List.length_nil]; omega, ?_⟩
  rw [next?, dif_neg (by omega)]
  simp only [htake, hnumber, hdrop, List.take_length, hrest]
  rw [if_neg (by omega), if_neg (by omega), ofBody, Frame.ofBody_encode frame hle]

theorem cut_packet {frame : Frame} {bytes : List UInt8} (h : frame.packet = .ok bytes) :
    cut bytes = ([.frame frame], []) := by
  obtain ⟨short, hnext⟩ := next_packet h
  have hnil : cut [] = ([], []) := by
    rw [cut]
    rfl
  rw [cut, hnext]
  simp only [hnil]

theorem next_part {frame : Frame} {bytes : List UInt8} (h : frame.packet = .ok bytes)
    (written : Nat) (part : written < bytes.length) : next? (bytes.take written) = none := by
  obtain ⟨hle, rfl⟩ := Frame.packet_eq_ok h
  have hsize : Frame.maxLength < 256 ^ 4 := by decide
  have hnumber := ofLittleEndian_littleEndian 4 (encode frame).length (by omega)
  rw [List.length_append, length_littleEndian] at part
  have hlength : ((littleEndian 4 (encode frame).length ++ encode frame).take written).length =
      written := by
    rw [List.length_take, List.length_append, length_littleEndian]
    omega
  rw [next?]
  by_cases short : written < 4
  · rw [dif_pos (by omega)]
  · have htake : ((littleEndian 4 (encode frame).length ++ encode frame).take written).take 4 =
        littleEndian 4 (encode frame).length := by
      rw [List.take_take, Nat.min_eq_left (by omega)]
      exact List.take_left' (length_littleEndian 4 _)
    rw [dif_neg (by omega)]
    simp only [htake, hnumber]
    rw [if_neg (by omega), if_pos (by omega)]

theorem cut_part {frame : Frame} {bytes : List UInt8} (h : frame.packet = .ok bytes)
    (written : Nat) (part : written < bytes.length) :
    cut (bytes.take written) = ([], bytes.take written) := by
  rw [cut, next_part h written part]

end Arrival

namespace Inbox

theorem push_packet {frame : Frame} {bytes : List UInt8} (h : frame.packet = .ok bytes)
    (inbox : Inbox) (whole : inbox.tail = []) :
    inbox.push bytes = ⟨inbox.arrivals ++ [.frame frame], []⟩ := by
  rw [push, whole, List.nil_append, Arrival.cut_packet h]

theorem push_part {frame : Frame} {bytes : List UInt8} (h : frame.packet = .ok bytes)
    (written : Nat) (part : written < bytes.length) (inbox : Inbox) (whole : inbox.tail = []) :
    (inbox.push (bytes.take written)).arrivals = inbox.arrivals := by
  rw [push, whole, List.nil_append, Arrival.cut_part h written part]
  exact List.append_nil _

end Inbox
end FaultDrill
