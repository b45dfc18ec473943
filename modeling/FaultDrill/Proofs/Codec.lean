import FaultDrill.Proofs.Stream
import FaultDrill.Wire.Values
set_option autoImplicit false

namespace FaultDrill.Wire

theorem bind_eq_ok {α β : Type} {r : Reader α} {f : α → Reader β} {bytes rest : List UInt8} {b : β}
    (h : (r >>= f).run bytes = .ok (b, rest)) :
    ∃ a middle, r.run bytes = .ok (a, middle) ∧ (f a).run middle = .ok (b, rest) := by
  rw [StateT.run_bind] at h
  cases hr : r.run bytes with
  | error fault =>
    rw [hr] at h
    cases h
  | ok first =>
    rw [hr] at h
    exact ⟨first.1, first.2, rfl, h⟩

theorem pure_eq_ok {α : Type} {a b : α} {bytes rest : List UInt8}
    (h : (pure a : Reader α).run bytes = .ok (b, rest)) : a = b ∧ bytes = rest := by
  cases h
  exact ⟨rfl, rfl⟩

theorem takeBytes_eq_ok {count : Nat} {fault : DecodeFault} {bytes rest taken : List UInt8}
    (h : (takeBytes count fault).run bytes = .ok (taken, rest)) :
    bytes = taken ++ rest ∧ taken.length = count := by
  change (if bytes.length < count then (throw fault : Reader PUnit) >>= _
    else _ : Reader (List UInt8)).run bytes = _ at h
  split at h
  · cases h
  · cases h
    exact ⟨(List.take_append_drop count bytes).symm, by rw [List.length_take]; omega⟩

theorem ofLittleEndian_lt (bytes : List UInt8) : ofLittleEndian bytes < 256 ^ bytes.length := by
  induction bytes with
  | nil => exact Nat.one_pos
  | cons b rest ih =>
    have hb := b.toNat_lt
    rw [ofLittleEndian, List.length_cons, Nat.pow_succ]
    omega

theorem number_eq_ok {width n : Nat} {bytes rest : List UInt8}
    (h : (number width).run bytes = .ok (n, rest)) :
    bytes = littleEndian width n ++ rest ∧ n < 256 ^ width := by
  obtain ⟨taken, middle, ht, hp⟩ := bind_eq_ok h
  obtain ⟨rfl, rfl⟩ := pure_eq_ok hp
  obtain ⟨rfl, rfl⟩ := takeBytes_eq_ok ht
  rw [littleEndian_ofLittleEndian]
  exact ⟨rfl, ofLittleEndian_lt taken⟩

section Values

variable {bytes rest : List UInt8}

theorem written_uint32 {n : UInt32} (h : (reader : Reader UInt32).run bytes = .ok (n, rest)) :
    bytes = encode n ++ rest := by
  obtain ⟨value, middle, hn, hp⟩ := bind_eq_ok h
  obtain ⟨rfl, rfl⟩ := pure_eq_ok hp
  obtain ⟨rfl, hlt⟩ := number_eq_ok hn
  exact congrArg (fun n => littleEndian 4 n ++ middle) (UInt32.toNat_ofNat_of_lt' hlt).symm

theorem written_uint64 {n : UInt64} (h : (reader : Reader UInt64).run bytes = .ok (n, rest)) :
    bytes = encode n ++ rest := by
  obtain ⟨value, middle, hn, hp⟩ := bind_eq_ok h
  obtain ⟨rfl, rfl⟩ := pure_eq_ok hp
  obtain ⟨rfl, hlt⟩ := number_eq_ok hn
  exact congrArg (fun n => littleEndian 8 n ++ middle) (UInt64.toNat_ofNat_of_lt' hlt).symm

theorem written_int32 {n : Int32} (h : (reader : Reader Int32).run bytes = .ok (n, rest)) :
    bytes = encode n ++ rest := by
  obtain ⟨value, middle, hn, hp⟩ := bind_eq_ok h
  obtain ⟨rfl, rfl⟩ := pure_eq_ok hp
  obtain ⟨rfl, hlt⟩ := number_eq_ok hn
  exact congrArg (fun n => littleEndian 4 n ++ middle) (UInt32.toNat_ofNat_of_lt' hlt).symm

theorem written_bytes {value : List UInt8}
    (h : (reader : Reader (List UInt8)).run bytes = .ok (value, rest)) :
    bytes = encode value ++ rest ∧ value.length < UInt64.size := by
  obtain ⟨length, middle, hn, ht⟩ := bind_eq_ok h
  obtain ⟨rfl, hlt⟩ := number_eq_ok hn
  obtain ⟨rfl, rfl⟩ := takeBytes_eq_ok ht
  exact ⟨(List.append_assoc ..).symm, hlt⟩

def IsShort (text : String) : Prop := (Text.Utf8.encode text).length < UInt64.size

instance (text : String) : Decidable (IsShort text) :=
  inferInstanceAs (Decidable ((Text.Utf8.encode text).length < UInt64.size))

theorem reads_text (text : String) (h : IsShort text) : Reads text text := by
  intro rest
  change (number 8 >>= _).run (littleEndian 8 (Text.Utf8.encode text).length ++
    Text.Utf8.encode text ++ rest) = _
  rw [List.append_assoc, run_bind_ok (number_append 8 _ _ h)]
  rw [run_bind_ok (takeBytes_append (Text.Utf8.encode text) rest .textCut),
    Text.Utf8.decode_encode]
  rfl

theorem written_text {text : String} (h : (reader : Reader String).run bytes = .ok (text, rest)) :
    bytes = encode text ++ rest ∧ IsShort text := by
  obtain ⟨length, middle, hn, hm⟩ := bind_eq_ok h
  obtain ⟨taken, after, ht, hd⟩ := bind_eq_ok hm
  obtain ⟨rfl, hlt⟩ := number_eq_ok hn
  obtain ⟨rfl, rfl⟩ := takeBytes_eq_ok ht
  cases found : Text.Utf8.decode taken with
  | error fault =>
    rw [found] at hd
    cases hd
  | ok value =>
    rw [found] at hd
    obtain ⟨rfl, rfl⟩ := pure_eq_ok hd
    obtain rfl := Text.Utf8.encode_of_decode found
    exact ⟨(List.append_assoc ..).symm, hlt⟩

theorem written_rank {rank : Rank} (h : (reader : Reader Rank).run bytes = .ok (rank, rest)) :
    bytes = encode rank ++ rest := by
  obtain ⟨index, middle, hi, hp⟩ := bind_eq_ok h
  obtain ⟨rfl, rfl⟩ := pure_eq_ok hp
  exact written_uint32 hi

end Values
end FaultDrill.Wire

namespace FaultDrill.FaultCode

/-- The code is no number from 0 to 11 that goes without its name. -/
def IsCanonical (code : FaultCode) : Prop :=
  ∀ raw, code = unrecognized raw → ¬(0 ≤ raw.toInt ∧ raw.toInt ≤ 11)

theorem toInt32_ofInt32 (raw : Int32) : (ofInt32 raw).toInt32 = raw := by
  unfold ofInt32
  split
  case h_13 => rfl
  all_goals
    rename_i h
    exact (Int32.toInt_inj.mp h).symm

theorem canonical_ofInt32 (raw : Int32) : (ofInt32 raw).canonical = ofInt32 raw := by
  rw [canonical, toInt32_ofInt32]

theorem ofInt32_eq_unrecognized (raw : Int32) :
    ofInt32 raw = unrecognized raw ↔ ¬(0 ≤ raw.toInt ∧ raw.toInt ≤ 11) := by
  unfold ofInt32
  split
  case h_13 =>
    simp only [imp_false] at *
    exact ⟨fun _ => by omega, fun _ => trivial⟩
  all_goals
    rename_i h
    simp [h]

theorem canonical_eq_iff (code : FaultCode) : code.canonical = code ↔ code.IsCanonical := by
  cases code with
  | unrecognized raw =>
    refine (ofInt32_eq_unrecognized raw).trans ⟨fun h other he => ?_, fun h => h raw rfl⟩
    obtain rfl := unrecognized.inj he
    exact h
  | _ => exact ⟨fun _ => nofun, fun _ => rfl⟩

end FaultDrill.FaultCode

namespace FaultDrill.Wire

variable {bytes rest : List UInt8}

theorem written_faultCode {code : FaultCode}
    (h : (reader : Reader FaultCode).run bytes = .ok (code, rest)) :
    bytes = encode code ++ rest ∧ code.canonical = code := by
  obtain ⟨raw, middle, hr, hp⟩ := bind_eq_ok h
  obtain ⟨rfl, rfl⟩ := pure_eq_ok hp
  have hraw : encode (FaultCode.ofInt32 raw) = encode raw :=
    congrArg (encode : Int32 → List UInt8) (FaultCode.toInt32_ofInt32 raw)
  exact ⟨hraw ▸ written_int32 hr, FaultCode.canonical_ofInt32 raw⟩

theorem written_runParameters {p : RunParameters}
    (h : (reader : Reader RunParameters).run bytes = .ok (p, rest)) :
    bytes = encode p ++ rest ∧ p.fault.canonical = p.fault := by
  obtain ⟨seconds, afterSeconds, hs, h⟩ := bind_eq_ok h
  obtain ⟨code, afterCode, hc, h⟩ := bind_eq_ok h
  obtain ⟨failing, afterFailing, hf, hp⟩ := bind_eq_ok h
  obtain ⟨rfl, rfl⟩ := pure_eq_ok hp
  obtain ⟨rfl, canonical⟩ := written_faultCode hc
  obtain rfl := written_rank hf
  refine ⟨(written_uint64 hs).trans ?_, canonical⟩
  change _ = encode seconds ++ encode code ++ encode failing ++ afterFailing
  rw [List.append_assoc, List.append_assoc]

theorem reads_participant (p : Participant) (h : IsShort p.host) : Reads p p := by
  intro rest
  change (reader >>= _ : Reader Participant).run
    (encode p.rank ++ encode p.host ++ encode p.pid ++ rest) = _
  rw [List.append_assoc, List.append_assoc, run_bind_ok (reads_rank p.rank _),
    run_bind_ok (reads_text p.host h _), run_bind_ok (reads_uint32 p.pid _)]
  rfl

theorem written_participant {p : Participant}
    (h : (reader : Reader Participant).run bytes = .ok (p, rest)) :
    bytes = encode p ++ rest ∧ IsShort p.host := by
  obtain ⟨rank, afterRank, hr, h⟩ := bind_eq_ok h
  obtain ⟨host, afterHost, hh, h⟩ := bind_eq_ok h
  obtain ⟨pid, afterPid, hn, hp⟩ := bind_eq_ok h
  obtain ⟨rfl, rfl⟩ := pure_eq_ok hp
  obtain ⟨rfl, short⟩ := written_text hh
  obtain rfl := written_uint32 hn
  refine ⟨(written_rank hr).trans ?_, short⟩
  change _ = encode rank ++ encode host ++ encode pid ++ afterPid
  rw [List.append_assoc, List.append_assoc]

theorem written_frame {frame : Frame}
    (h : (reader : Reader Frame).run bytes = .ok (frame, rest)) :
    bytes = encode frame ++ rest ∧ frame.payload.length < UInt64.size := by
  have empty : ([] : List UInt8).length < UInt64.size := by decide
  obtain ⟨kind, middle, hk, hfields⟩ := bind_eq_ok h
  obtain rfl := written_uint32 hk
  split at hfields
  · rename_i he
    obtain ⟨rank, after, hr, hp⟩ := bind_eq_ok hfields
    obtain ⟨rfl, rfl⟩ := pure_eq_ok hp
    obtain rfl := written_rank hr
    subst he
    exact ⟨(List.append_assoc ..).symm, empty⟩
  split at hfields
  · rename_i he
    obtain ⟨tag, afterTag, ht, hpayload⟩ := bind_eq_ok hfields
    obtain ⟨payload, after, hb, hp⟩ := bind_eq_ok hpayload
    obtain ⟨rfl, rfl⟩ := pure_eq_ok hp
    obtain ⟨rfl, short⟩ := written_bytes hb
    obtain rfl := written_uint32 ht
    subst he
    refine ⟨?_, short⟩
    change _ = encode (1 : UInt32) ++ encode tag ++ encode payload ++ after
    rw [List.append_assoc, List.append_assoc]
  split at hfields
  · rename_i he
    obtain ⟨rfl, rfl⟩ := pure_eq_ok hfields
    subst he
    exact ⟨rfl, empty⟩
  split at hfields
  · rename_i he
    obtain ⟨rfl, rfl⟩ := pure_eq_ok hfields
    subst he
    exact ⟨rfl, empty⟩
  split at hfields
  · rename_i he
    obtain ⟨payload, after, hb, hp⟩ := bind_eq_ok hfields
    obtain ⟨rfl, rfl⟩ := pure_eq_ok hp
    obtain ⟨rfl, short⟩ := written_bytes hb
    subst he
    exact ⟨(List.append_assoc ..).symm, short⟩
  · cases hfields

/-- Reading and writing of one type fit together: a value that is `Short` enough to be written is
read as its `normal` form, and what is read is short, in that form, and written as it was. -/
structure Codec (α : Type) [Wire α] (Short : α → Prop) (normal : α → α) : Prop where
  reads : ∀ v, Short v → Reads v (normal v)
  written : ∀ bytes v rest, (reader : Reader α).run bytes = .ok (v, rest) →
    bytes = encode v ++ rest ∧ Short v ∧ normal v = v

/-- Decoding accepts exactly the encodings of canonical values, each with anything after it. -/
structure Exact (α : Type) [Wire α] (Short Canonical : α → Prop) (normal : α → α) : Prop where
  decode_iff : ∀ bytes (v : α), decode bytes = .ok v ↔
    Short v ∧ Canonical v ∧ ∃ rest, bytes = encode v ++ rest
  decode_append : ∀ (v : α) rest, Short v → decode (encode v ++ rest) = .ok (normal v)
  normal_eq : ∀ v, Canonical v → normal v = v
  decode_cut : ∀ (v : α) cut rest, Short v → encode v = cut ++ rest → rest ≠ [] →
    ∃ fault, (decode cut : Except DecodeFault α) = .error fault
  prefix_free : ∀ (v w : α) rest, Short v → Short w → encode w = encode v ++ rest → rest = []

theorem decode_eq_ok {α : Type} [Wire α] {bytes : List UInt8} {v : α} :
    decode bytes = .ok v ↔ ∃ rest, (reader : Reader α).run bytes = .ok (v, rest) := by
  rw [decode]
  cases hr : (reader : Reader α).run bytes with
  | error fault =>
    constructor
    · intro h
      cases h
    · rintro ⟨rest, h⟩
      cases h
  | ok result =>
    obtain ⟨found, rest⟩ := result
    constructor
    · intro h
      cases h
      exact ⟨rest, rfl⟩
    · rintro ⟨rest', h⟩
      cases h
      rfl

namespace Codec

variable {α : Type} [Wire α] {Short Canonical : α → Prop} {normal : α → α}

theorem rest_eq (codec : Codec α Short normal) {v w : α} {rest rest' : List UInt8}
    (hv : Short v) (hw : Short w) (h : encode v ++ rest = encode w ++ rest') : rest = rest' := by
  have hread := codec.reads v hv rest
  rw [h, codec.reads w hw rest'] at hread
  exact (congrArg Prod.snd (Except.ok.inj hread)).symm

theorem exact (codec : Codec α Short normal) (canonical : ∀ v, normal v = v ↔ Canonical v) :
    Exact α Short Canonical normal where
  decode_iff bytes v := by
    rw [decode_eq_ok]
    constructor
    · rintro ⟨rest, h⟩
      obtain ⟨he, short, hn⟩ := codec.written bytes v rest h
      exact ⟨short, (canonical v).mp hn, rest, he⟩
    · rintro ⟨short, hc, rest, rfl⟩
      have h := codec.reads v short rest
      rw [(canonical v).mpr hc] at h
      exact ⟨rest, h⟩
  decode_append v rest short := decode_eq_ok.mpr ⟨rest, codec.reads v short rest⟩
  normal_eq v := (canonical v).mpr
  decode_cut v cut rest short h more := by
    cases hd : (decode cut : Except DecodeFault α) with
    | error fault => exact ⟨fault, rfl⟩
    | ok w =>
      obtain ⟨left, hr⟩ := decode_eq_ok.mp hd
      obtain ⟨rfl, short', -⟩ := codec.written cut w left hr
      have hrest : left ++ rest = [] := by
        refine codec.rest_eq short' short ?_
        rw [List.append_nil, h, List.append_assoc]
      exact absurd (List.append_eq_nil_iff.mp hrest).2 more
  prefix_free v w rest hv hw h := by
    refine codec.rest_eq hv hw ?_
    rw [List.append_nil, h]

end Codec

theorem codec_rank : Codec Rank (fun _ => True) id where
  reads rank _ := reads_rank rank
  written _ _ _ h := ⟨written_rank h, trivial, rfl⟩

theorem codec_faultCode : Codec FaultCode (fun _ => True) FaultCode.canonical where
  reads code _ := reads_faultCode code
  written _ _ _ h := ⟨(written_faultCode h).1, trivial, (written_faultCode h).2⟩

def normalParameters (p : RunParameters) : RunParameters := { p with fault := p.fault.canonical }

theorem normalParameters_eq_iff (p : RunParameters) :
    normalParameters p = p ↔ p.fault.canonical = p.fault :=
  ⟨fun h => congrArg RunParameters.fault h, fun h => by rw [normalParameters, h]⟩

theorem codec_runParameters : Codec RunParameters (fun _ => True) normalParameters where
  reads p _ := reads_runParameters p
  written _ p _ h := ⟨(written_runParameters h).1, trivial,
    (normalParameters_eq_iff p).mpr (written_runParameters h).2⟩

theorem codec_participant : Codec Participant (fun p => IsShort p.host) id where
  reads := reads_participant
  written _ _ _ h := ⟨(written_participant h).1, (written_participant h).2, rfl⟩

theorem codec_frame : Codec Frame (fun frame => frame.payload.length < UInt64.size) id where
  reads := Frame.reads_frame
  written _ _ _ h := ⟨(written_frame h).1, (written_frame h).2, rfl⟩

end FaultDrill.Wire

namespace FaultDrill.Frame
open Wire

theorem length_encode_of_body {body : List UInt8} {frame : Frame} (h : ofBody body = .ok frame) :
    (encode frame).length ≤ body.length := by
  have hd : decode body = .ok frame := by
    rw [ofBody] at h
    cases hb : (decode body : Except DecodeFault Frame) with
    | error fault =>
      rw [hb] at h
      cases h
    | ok found =>
      rw [hb] at h
      cases h
      rfl
  obtain ⟨rest, hr⟩ := decode_eq_ok.mp hd
  obtain ⟨rfl, -⟩ := written_frame hr
  rw [List.length_append]
  exact Nat.le_add_right _ _

theorem length_encode_of_read {source : Source} {frame : Frame}
    (h : (read source).1 = .ok (some frame)) : (encode frame).length ≤ maxLength := by
  obtain ⟨after, hread, -⟩ := read_eq_parse source
  rw [hread] at h
  have hending : ending source.fault ≠ .ok (some frame) := by
    unfold ending
    split <;> nofun
  rw [parse] at h
  split at h
  · exact absurd h hending
  · simp only at h
    split at h
    · cases h
    · split at h
      · exact absurd h hending
      · rename_i fits _
        generalize hbody : (source.bytes.drop 4).take (ofLittleEndian (source.bytes.take 4)) = body
          at h
        have hlength : body.length ≤ ofLittleEndian (source.bytes.take 4) := by
          rw [← hbody, List.length_take]
          exact Nat.min_le_left _ _
        rw [decoded_eq] at h
        cases ho : ofBody body with
        | error error =>
          rw [ho] at h
          cases h
        | ok found =>
          rw [ho] at h
          cases h
          have hencode := length_encode_of_body ho
          rw [maxLength_eq]
          omega

theorem write_unlimited (frame : Frame) (h : (encode frame).length ≤ maxLength)
    (taken : List UInt8) (fault : FaultKind) :
    write ⟨taken, none, fault, none⟩ frame =
      (⟨taken ++ littleEndian 4 (encode frame).length ++ encode frame, none, fault, none⟩,
        .ok ()) := by
  rw [write]
  simp only [if_neg (Nat.not_lt.mpr h)]
  rfl

end FaultDrill.Frame

namespace FaultDrill.Wire

/-- For each type that travels, decoding accepts exactly the encodings of canonical values, and
whatever frame can be read can be written. -/
theorem decoding_is_exact :
    Exact Rank (fun _ => True) (fun _ => True) id ∧
    Exact FaultCode (fun _ => True) FaultCode.IsCanonical FaultCode.canonical ∧
    Exact RunParameters (fun _ => True) (fun p => p.fault.IsCanonical) normalParameters ∧
    Exact Participant (fun p => IsShort p.host) (fun _ => True) id ∧
    Exact Frame (fun frame => frame.payload.length < UInt64.size) (fun _ => True) id ∧
    ∀ source frame, (Frame.read source).1 = .ok (some frame) → ∀ taken fault,
      Frame.write ⟨taken, none, fault, none⟩ frame =
        (⟨taken ++ littleEndian 4 (encode frame).length ++ encode frame, none, fault, none⟩,
          .ok ()) := by
  refine ⟨codec_rank.exact fun _ => by simp, codec_faultCode.exact FaultCode.canonical_eq_iff,
    codec_runParameters.exact fun p => ?_, codec_participant.exact fun _ => by simp,
    codec_frame.exact fun _ => by simp, fun source frame h => ?_⟩
  · exact (normalParameters_eq_iff p).trans p.fault.canonical_eq_iff
  · exact Frame.write_unlimited frame (Frame.length_encode_of_read h)

/-- A frame that comes in with bytes of no meaning after it, a fault code without its name, and a
text that is cut within a character. -/
theorem decoding_is_exact_inputs :
    Frame.write ⟨[], none, .brokenPipe, none⟩ (.data 7 [1]) =
        (⟨[17, 0, 0, 0] ++ encode (Frame.data 7 [1]), none, .brokenPipe, none⟩, .ok ()) ∧
      decode (encode (FaultCode.unrecognized 3) ++ [1]) = .ok FaultCode.illegalInstruction ∧
      ∃ fault, (decode (encode (Participant.mk ⟨1⟩ "é" 2) |>.take 13) :
        Except DecodeFault Participant) = .error fault := by
  refine ⟨?_, ?_, ?_⟩
  · exact decoding_is_exact.2.2.2.2.2
      ⟨[[19, 0, 0, 0, 1, 0, 0, 0, 7, 0, 0, 0], [1, 0, 0, 0, 0, 0, 0, 0, 1, 9, 9]], none⟩ _ rfl
      [] .brokenPipe
  · exact decoding_is_exact.2.1.decode_append _ [1] trivial
  · exact decoding_is_exact.2.2.2.1.decode_cut (Participant.mk ⟨1⟩ "é" 2) _
      ((encode (Participant.mk ⟨1⟩ "é" 2)).drop 13) (by decide) (List.take_append_drop 13 _).symm
      (by decide)

end FaultDrill.Wire
