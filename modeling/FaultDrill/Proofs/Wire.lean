import Mathlib.Algebra.Group.Nat.Defs
import FaultDrill.Frame
import FaultDrill.Proofs.Utf8
set_option autoImplicit false

namespace FaultDrill.Wire

theorem run_bind_ok {α β : Type} {r : Reader α} {f : α → Reader β} {bytes rest : List UInt8}
    {a : α} (h : r.run bytes = .ok (a, rest)) : (r >>= f).run bytes = (f a).run rest := by
  rw [StateT.run_bind, h]
  rfl

theorem takeBytes_append (bytes rest : List UInt8) (fault : DecodeFault) :
    (takeBytes bytes.length fault).run (bytes ++ rest) = .ok (bytes, rest) := by
  have hn : ¬ (bytes ++ rest).length < bytes.length := by
    rw [List.length_append]
    omega
  change (if (bytes ++ rest).length < bytes.length then (throw fault : Reader PUnit) >>= _
    else _ : Reader (List UInt8)).run (bytes ++ rest) = _
  rw [if_neg hn]
  change Except.ok ((bytes ++ rest).take bytes.length, (bytes ++ rest).drop bytes.length) = _
  rw [List.take_left, List.drop_left]

theorem ofLittleEndian_littleEndian (width n : Nat) (h : n < 256 ^ width) :
    ofLittleEndian (littleEndian width n) = n := by
  induction width generalizing n with
  | zero => simp only [Nat.pow_zero] at h; simp only [littleEndian, ofLittleEndian]; omega
  | succ width ih =>
    have hd : n / 256 < 256 ^ width := by
      rw [Nat.pow_succ] at h
      omega
    have hm : (UInt8.ofNat (n % 256)).toNat = n % 256 := by
      rw [UInt8.toNat_ofNat']
      omega
    rw [littleEndian, ofLittleEndian, ih _ hd, hm]
    omega

theorem number_append (width n : Nat) (rest : List UInt8) (h : n < 256 ^ width) :
    (number width).run (littleEndian width n ++ rest) = .ok (n, rest) := by
  have ht := takeBytes_append (littleEndian width n) rest .numberCut
  rw [length_littleEndian] at ht
  rw [number, run_bind_ok ht, ofLittleEndian_littleEndian width n h]
  rfl

/-- Reading the form of one value gives another, whatever bytes follow. -/
def Reads {α : Type} [Wire α] (value result : α) : Prop :=
  ∀ rest, (reader : Reader α).run (encode value ++ rest) = .ok (result, rest)

theorem Reads.decode_eq {α : Type} [Wire α] {value result : α} (h : Reads value result) :
    decode (encode value) = .ok result := by
  have hr := h []
  rw [List.append_nil] at hr
  rw [decode, hr]
  rfl

theorem reads_uint32 (n : UInt32) : Reads n n := by
  intro rest
  refine (run_bind_ok (number_append 4 n.toNat rest n.toNat_lt)).trans ?_
  rw [UInt32.ofNat_toNat]
  rfl

theorem reads_uint64 (n : UInt64) : Reads n n := by
  intro rest
  refine (run_bind_ok (number_append 8 n.toNat rest n.toNat_lt)).trans ?_
  rw [UInt64.ofNat_toNat]
  rfl

theorem reads_int32 (n : Int32) : Reads n n := by
  intro rest
  refine (run_bind_ok (number_append 4 n.toUInt32.toNat rest n.toUInt32.toNat_lt)).trans ?_
  rw [UInt32.ofNat_toNat]
  rfl

theorem reads_bytes (bytes : List UInt8) (h : bytes.length < UInt64.size) :
    Reads bytes bytes := by
  intro rest
  change (number 8 >>= _).run (littleEndian 8 bytes.length ++ bytes ++ rest) = _
  rw [List.append_assoc, run_bind_ok (number_append 8 bytes.length (bytes ++ rest) h)]
  exact takeBytes_append bytes rest .numberCut

theorem reads_rank (rank : Rank) : Reads rank rank := by
  intro rest
  exact run_bind_ok (reads_uint32 rank.index rest)

theorem reads_faultCode (code : FaultCode) : Reads code code.canonical := by
  intro rest
  exact run_bind_ok (reads_int32 code.toInt32 rest)

theorem reads_runParameters (p : RunParameters) :
    Reads p { p with fault := p.fault.canonical } := by
  intro rest
  change (reader >>= _ : Reader RunParameters).run
    (encode p.sleepSeconds ++ encode p.fault ++ encode p.failing ++ rest) = _
  rw [List.append_assoc, List.append_assoc, run_bind_ok (reads_uint64 p.sleepSeconds _),
    run_bind_ok (reads_faultCode p.fault _), run_bind_ok (reads_rank p.failing _)]
  rfl

end FaultDrill.Wire

namespace FaultDrill.Frame
open Wire

def payload : Frame → List UInt8
  | data _ payload | broadcast payload => payload
  | _ => []

theorem reads_frame (frame : Frame) (h : frame.payload.length < UInt64.size) :
    Reads frame frame := by
  intro rest
  cases frame with
  | join rank =>
    change (reader >>= _ : Reader Frame).run (encode (0 : UInt32) ++ encode rank ++ rest) = _
    rw [List.append_assoc, run_bind_ok (reads_uint32 0 _)]
    exact run_bind_ok (reads_rank rank rest)
  | data tag payload =>
    change (reader >>= _ : Reader Frame).run
      (encode (1 : UInt32) ++ encode tag ++ encode payload ++ rest) = _
    rw [List.append_assoc, List.append_assoc, run_bind_ok (reads_uint32 1 _)]
    refine (run_bind_ok (reads_uint32 tag _)).trans ?_
    exact run_bind_ok (reads_bytes payload h rest)
  | barrierEnter =>
    change (reader >>= _ : Reader Frame).run (encode (2 : UInt32) ++ rest) = _
    rw [run_bind_ok (reads_uint32 2 _)]
    rfl
  | barrierRelease =>
    change (reader >>= _ : Reader Frame).run (encode (3 : UInt32) ++ rest) = _
    rw [run_bind_ok (reads_uint32 3 _)]
    rfl
  | broadcast payload =>
    change (reader >>= _ : Reader Frame).run (encode (4 : UInt32) ++ encode payload ++ rest) = _
    rw [List.append_assoc, run_bind_ok (reads_uint32 4 _)]
    exact run_bind_ok (reads_bytes payload h rest)

end FaultDrill.Frame
