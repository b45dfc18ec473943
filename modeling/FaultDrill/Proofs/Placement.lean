import FaultDrill.Placement
import FaultDrill.Proofs.Address
set_option autoImplicit false

namespace FaultDrill
open Text Net

namespace Duration

def floorMillis (d : Duration) : Duration :=
  ⟨d.seconds, d.nanos / 1_000_000 * 1_000_000, by have := d.nanos_lt; omega⟩

theorem wholeMillis_ofMillis (millis : UInt64) : (ofMillis millis).wholeMillis = millis.toNat := by
  have small := millis.toNat_lt
  have seconds : (UInt64.ofNat (millis.toNat / 1000)).toNat = millis.toNat / 1000 :=
    UInt64.toNat_ofNat_of_lt (Nat.lt_of_le_of_lt (Nat.div_le_self ..) small)
  simp only [wholeMillis, ofMillis, seconds]
  omega

theorem ofMillis_wholeMillis {d : Duration} (fits : d.wholeMillis < UInt64.size) :
    ofMillis (UInt64.ofNat d.wholeMillis) = d.floorMillis := by
  have below := d.nanos_lt
  have millis : (UInt64.ofNat d.wholeMillis).toNat = d.wholeMillis :=
    UInt64.toNat_ofNat_of_lt fits
  have seconds : d.wholeMillis / 1000 = d.seconds.toNat := by
    unfold wholeMillis
    omega
  simp only [ofMillis, floorMillis, millis, seconds, UInt64.ofNat_toNat, mk.injEq, true_and]
  unfold wholeMillis
  omega

theorem floorMillis_eq_self {d : Duration} : d.floorMillis = d ↔ d.nanos % 1_000_000 = 0 := by
  obtain ⟨seconds, nanos, below⟩ := d
  simp only [floorMillis, mk.injEq, true_and]
  omega

end Duration

namespace Placement

theorem read_word32 (name : String) (value : UInt32) :
    readVariable readWord32? name (toString value) = .ok value := by
  have text : (toString value).toList = Nat.toDigits 10 value.toNat := Nat.toList_repr
  have small : value.toNat < UInt32.size := value.toNat_lt
  simp [readVariable, readWord32?, text, trim_toDigits, readUnsigned_toDigits, small]

theorem read_word64 (name : String) (value : Nat) :
    readVariable readWord64? name (toString value) =
      if value < UInt64.size then .ok (UInt64.ofNat value)
      else .error (.configuration name (toString value)) := by
  by_cases fits : value < UInt64.size <;>
    simp [readVariable, readWord64?, trim_toDigits, readUnsigned_toDigits, fits]

theorem read_address (name : String) (address : SocketAddress) :
    readVariable SocketAddress.parse? name address.render = .ok address := by
  simp [readVariable, SocketAddress.trim_render, SocketAddress.parse_render]

theorem make_eq_ok {rank : Rank} {size : UInt32} {address : SocketAddress} {c : Placement} :
    make rank size address = .ok c ↔
      1 ≤ size ∧ rank.index < size ∧ c = ⟨rank, size, address, defaultTimeout⟩ := by
  have positive : ¬size = 0 ↔ 1 ≤ size := by
    rw [UInt32.le_iff_toNat_le, ← UInt32.toNat_inj]
    simp
    omega
  unfold make
  by_cases zero : size = 0
  · simp [zero]
  · by_cases outside : rank.index ≥ size
    · simp [zero, outside, UInt32.not_lt.mpr outside]
    · simp [zero, outside, positive.mp zero, UInt32.not_le.mp outside, eq_comm]

theorem lookup_environment (c : Placement) :
    lookupVariable c.environment rankVariable = some (toString c.rank) ∧
      lookupVariable c.environment sizeVariable = some (toString c.size) ∧
      lookupVariable c.environment addressVariable = some c.address.render ∧
      lookupVariable c.environment timeoutVariable =
        some (toString c.connectTimeout.wholeMillis) := by
  refine ⟨?_, ?_, ?_, ?_⟩ <;>
    simp [lookupVariable, environment, rankVariable, sizeVariable, addressVariable,
      timeoutVariable]

theorem ofLookup_environment {c : Placement} (positive : 1 ≤ c.size)
    (inside : c.rank.index < c.size) :
    ofLookup (lookupVariable c.environment) =
      if c.connectTimeout.wholeMillis < UInt64.size then
        .ok { c with connectTimeout := c.connectTimeout.floorMillis }
      else
        .error (.configuration timeoutVariable (toString c.connectTimeout.wholeMillis)) := by
  obtain ⟨rank, size, address, timeout⟩ := lookup_environment c
  have made : make c.rank c.size c.address = .ok ⟨c.rank, c.size, c.address, defaultTimeout⟩ :=
    make_eq_ok.mpr ⟨positive, inside, rfl⟩
  have rank_text : toString c.rank = toString c.rank.index := rfl
  simp only [ofLookup, rank, size, address, timeout, rank_text, read_word32, read_address,
    read_word64, bind, Except.bind, made]
  by_cases fits : c.connectTimeout.wholeMillis < UInt64.size
  · simp [fits, Duration.ofMillis_wholeMillis fits, pure, Except.pure]
  · simp [fits]

theorem bind_eq_ok {ε α β : Type} {first : Except ε α} {next : α → Except ε β} {result : β}
    (h : (first >>= next) = .ok result) : ∃ value, first = .ok value ∧ next value = .ok result := by
  cases first with
  | error failure => cases h
  | ok value => exact ⟨value, rfl, h⟩

theorem timeout_ok {text : Option String} {placed c : Placement}
    (h : (match text with
      | none => pure placed
      | some text => do
        let millis ← readVariable readWord64? timeoutVariable text
        return { placed with connectTimeout := .ofMillis millis } : Except GroupError Placement) =
      .ok c) : c = placed ∨ ∃ millis, c = { placed with connectTimeout := .ofMillis millis } := by
  cases text with
  | none =>
    cases h
    exact .inl rfl
  | some text =>
    obtain ⟨millis, -, h⟩ := bind_eq_ok h
    cases h
    exact .inr ⟨millis, rfl⟩

theorem ofLookup_ok {lookup : String → Option String} {c : Placement}
    (h : ofLookup lookup = .ok c) :
    1 ≤ c.size ∧ c.rank.index < c.size ∧ ∃ millis, c.connectTimeout = .ofMillis millis := by
  have default_timeout : defaultTimeout = .ofMillis 10000 := by decide
  unfold ofLookup at h
  dsimp only at h
  split at h
  · have alone : 1 ≤ solo.size ∧ solo.rank.index < solo.size := by decide
    rcases timeout_ok h with rfl | ⟨millis, rfl⟩
    · exact ⟨alone.1, alone.2, _, default_timeout⟩
    · exact ⟨alone.1, alone.2, millis, rfl⟩
  · obtain ⟨rank, -, h⟩ := bind_eq_ok h
    obtain ⟨size, -, h⟩ := bind_eq_ok h
    obtain ⟨address, -, h⟩ := bind_eq_ok h
    obtain ⟨placed, made, h⟩ := bind_eq_ok h
    obtain ⟨positive, inside, rfl⟩ := make_eq_ok.mp made
    rcases timeout_ok h with rfl | ⟨millis, rfl⟩
    · exact ⟨positive, inside, _, default_timeout⟩
    · exact ⟨positive, inside, millis, rfl⟩
  · cases h

theorem ofLookup_again {lookup : String → Option String} {c : Placement}
    (h : ofLookup lookup = .ok c) : ofLookup (lookupVariable c.environment) = .ok c := by
  obtain ⟨positive, inside, millis, timeout⟩ := ofLookup_ok h
  have whole : c.connectTimeout.wholeMillis = millis.toNat := by
    rw [timeout, Duration.wholeMillis_ofMillis]
  have fits : c.connectTimeout.wholeMillis < UInt64.size := whole ▸ millis.toNat_lt
  have kept : c.connectTimeout.floorMillis = c.connectTimeout := by
    rw [← Duration.ofMillis_wholeMillis fits, whole, UInt64.ofNat_toNat, timeout]
  rw [ofLookup_environment positive inside, if_pos fits, kept]

/-- A placement survives the way through its variables: one that was read comes back as it is, and
one that was made comes back with its timeout rounded down to whole milliseconds, if these are a
number of 64 bits. Otherwise the timeout is refused as it is shown. -/
theorem environment_round_trips :
    (∀ (lookup : String → Option String) (c : Placement), ofLookup lookup = .ok c →
      1 ≤ c.size ∧ c.rank.index < c.size ∧ ofLookup (lookupVariable c.environment) = .ok c) ∧
    ∀ (rank : Rank) (size : UInt32) (address : SocketAddress) (made : Placement),
      make rank size address = .ok made → ∀ d : Duration,
        let environment := { made with connectTimeout := d }.environment
        ((∃ read, ofLookup (lookupVariable environment) = .ok read) ↔
          d.wholeMillis < UInt64.size) ∧
        (d.wholeMillis < UInt64.size →
          ofLookup (lookupVariable environment) = .ok ⟨rank, size, address, d.floorMillis⟩) ∧
        (ofLookup (lookupVariable environment) = .ok { made with connectTimeout := d } ↔
          d.wholeMillis < UInt64.size ∧ d.nanos % 1_000_000 = 0) ∧
        (UInt64.size ≤ d.wholeMillis → ofLookup (lookupVariable environment) =
          .error (.configuration timeoutVariable (toString d.wholeMillis))) := by
  refine ⟨fun lookup c h => ⟨(ofLookup_ok h).1, (ofLookup_ok h).2.1, ofLookup_again h⟩, ?_⟩
  intro rank size address made h d
  obtain ⟨positive, inside, rfl⟩ := make_eq_ok.mp h
  have reads := @ofLookup_environment ⟨rank, size, address, d⟩ positive inside
  dsimp only at reads ⊢
  by_cases fits : d.wholeMillis < UInt64.size
  · rw [if_pos fits] at reads
    simp [reads, fits, Duration.floorMillis_eq_self]
  · rw [if_neg fits] at reads
    simp [reads, fits]

def oddlySpelled : String → Option String :=
  lookupVariable [(rankVariable, " +1"), (sizeVariable, "003\t"),
    (addressVariable, "[0:0:0:0:0:FFFF:102:304%07]:007200"), (timeoutVariable, "+0750")]

theorem environment_round_trips_oddlySpelled :
    (∃ c, ofLookup oddlySpelled = .ok c ∧
      1 ≤ c.size ∧ c.rank.index < c.size ∧ ofLookup (lookupVariable c.environment) = .ok c) ∧
    make .coordinator 1 (.v4 .loopback 0) = .ok solo ∧ defaultTimeout.wholeMillis < UInt64.size ∧
      ofLookup (lookupVariable { solo with connectTimeout := defaultTimeout }.environment) =
        .ok ⟨.coordinator, 1, .v4 .loopback 0, defaultTimeout.floorMillis⟩ := by
  have odd : ofLookup oddlySpelled = .ok ⟨⟨1⟩, 3,
      .v6 ⟨[0, 0, 0, 0, 0, 0xFFFF, 0x102, 0x304], rfl⟩ 7200 7, .ofMillis 750⟩ := by
    have given : oddlySpelled rankVariable = some " +1" ∧
        oddlySpelled sizeVariable = some "003\t" ∧
        oddlySpelled addressVariable = some "[0:0:0:0:0:FFFF:102:304%07]:007200" ∧
        oddlySpelled timeoutVariable = some "+0750" := by decide +kernel
    have rank : readWord32? (trim " +1".toList) = some 1 := by decide +kernel
    have size : readWord32? (trim "003\t".toList) = some 3 := by decide +kernel
    have address : SocketAddress.parse? (trim "[0:0:0:0:0:FFFF:102:304%07]:007200".toList) =
        some (.v6 ⟨[0, 0, 0, 0, 0, 0xFFFF, 0x102, 0x304], rfl⟩ 7200 7) := by decide +kernel
    have timeout : readWord64? (trim "+0750".toList) = some 750 := by decide +kernel
    simp only [ofLookup, given, readVariable, rank, size, address, timeout]
    rfl
  have made : make .coordinator 1 (.v4 .loopback 0) = .ok solo := rfl
  have fits : defaultTimeout.wholeMillis < UInt64.size := by decide
  have again := environment_round_trips.2 _ _ _ solo made defaultTimeout
  exact ⟨⟨_, odd, environment_round_trips.1 _ _ odd⟩, made, fits, again.2.1 fits⟩

def pastLimit : Duration := ⟨18446744073709551, 615_000_001, by decide⟩

/-- The limit of a timeout counts whole milliseconds: one that is longer by less is read too. -/
theorem timeout_past_limit :
    make .coordinator 1 (.v4 .loopback 0) = .ok solo ∧
      ¬((∃ read, ofLookup (lookupVariable { solo with connectTimeout := pastLimit }.environment) =
          .ok read) ↔
        pastLimit.totalNanos ≤ (UInt64.size - 1) * 1_000_000) := by
  have longer : ¬pastLimit.totalNanos ≤ (UInt64.size - 1) * 1_000_000 := by decide
  have fits : pastLimit.wholeMillis < UInt64.size := by decide
  have reads := @ofLookup_environment { solo with connectTimeout := pastLimit } (by decide)
    (by decide)
  rw [if_pos fits] at reads
  exact ⟨rfl, fun h => longer (h.mp ⟨_, reads⟩)⟩

end Placement
end FaultDrill
