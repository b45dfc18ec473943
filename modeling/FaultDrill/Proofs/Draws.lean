import FaultDrill.RunParameters
import Mathlib.Algebra.Order.Floor.Div
import Mathlib.Order.Interval.Set.Nat
set_option autoImplicit false

/-!
# Draws of the failing participant

The words that a draw maps to one rank are those whose multiple of the size lies in an interval
of an accepted length, so that there are equally many for every rank. A choice takes the first
word of the stream that is accepted, and nothing after it.
-/
namespace FaultDrill

namespace Draws

variable {n : UInt32}

theorem toNat_pos (h : n ≠ 0) : 0 < n.toNat := UInt32.pos_iff_ne_zero.mpr h

theorem log2_lt (n : UInt32) (h : n ≠ 0) : n.toNat.log2 < 32 :=
  (Nat.log2_lt (toNat_pos h).ne').mpr n.toNat_lt

/-- Shifted by its leading zeros, a number has the highest bit of the word. -/
theorem shifted_bounds (h : n ≠ 0) :
    2 ^ 31 ≤ n.toNat * 2 ^ leadingZeros n ∧ n.toNat * 2 ^ leadingZeros n < UInt32.size := by
  have positive := (toNat_pos h).ne'
  have small := log2_lt n h
  have low := Nat.log2_self_le positive
  have high := Nat.lt_log2_self (n := n.toNat)
  rw [leadingZeros, if_neg h]
  constructor
  · calc 2 ^ 31 = 2 ^ n.toNat.log2 * 2 ^ (31 - n.toNat.log2) := by rw [← pow_add]; congr 1; omega
      _ ≤ _ := Nat.mul_le_mul_right _ low
  · calc n.toNat * 2 ^ (31 - n.toNat.log2)
        < 2 ^ (n.toNat.log2 + 1) * 2 ^ (31 - n.toNat.log2) :=
          Nat.mul_lt_mul_of_pos_right high (Nat.two_pow_pos _)
      _ = 2 ^ 32 := by rw [← pow_add]; congr 1; omega
      _ = UInt32.size := rfl

theorem leadingZeros_eq_clz (h : n ≠ 0) : leadingZeros n = n.toBitVec.clz.toNat := by
  have nonzero : n.toBitVec ≠ 0#32 := fun zero => h (UInt32.toBitVec_inj.mp zero)
  have low := BitVec.two_pow_sub_clz_le_toNat_of_ne_zero (by decide) nonzero
  have high := BitVec.toNat_lt_two_pow_sub_clz (x := n.toBitVec)
  have below : n.toBitVec.clz.toNat < 32 := by
    by_contra large
    have none : 32 - n.toBitVec.clz.toNat = 0 := by omega
    rw [none] at high
    have := toNat_pos h
    have same : n.toBitVec.toNat = n.toNat := rfl
    omega
  have log : n.toNat.log2 = 31 - n.toBitVec.clz.toNat := by
    rw [Nat.log2_eq_iff (toNat_pos h).ne']
    refine ⟨low, ?_⟩
    have next : 31 - n.toBitVec.clz.toNat + 1 = 32 - n.toBitVec.clz.toNat := by omega
    rw [next]
    exact high
  rw [leadingZeros, if_neg h]
  omega

theorem isAccepted_iff (h : n ≠ 0) (word : UInt32) : isAccepted n word = true ↔
    word.toNat * n.toNat % UInt32.size < n.toNat * 2 ^ leadingZeros n := by
  have bounds := (shifted_bounds h).1
  rw [isAccepted, zone, Nat.shiftLeft_eq, decide_eq_true_iff]
  omega

theorem product_lt (n word : UInt32) : word.toNat * n.toNat < UInt64.size :=
  Nat.mul_lt_mul'' word.toNat_lt n.toNat_lt

theorem toNat_scale (n word : UInt32) :
    (scale n word).toNat = word.toNat * n.toNat / UInt32.size := by
  have product := product_lt n word
  exact UInt32.toNat_ofNat_of_lt' (Nat.div_lt_of_lt_mul product)

theorem scale_lt (h : n ≠ 0) (word : UInt32) : scale n word < n := by
  rw [UInt32.lt_iff_toNat_lt, toNat_scale]
  exact Nat.div_lt_of_lt_mul (Nat.mul_lt_mul_of_pos_right word.toNat_lt (toNat_pos h))

theorem toNat_product (n word : UInt32) :
    (word.toUInt64 * n.toUInt64).toNat = word.toNat * n.toNat := by
  rw [UInt64.toNat_mul, UInt32.toNat_toUInt64, UInt32.toNat_toUInt64]
  exact Nat.mod_eq_of_lt (product_lt n word)

theorem toNat_zone (h : n ≠ 0) :
    ((n <<< UInt32.ofNat n.toBitVec.clz.toNat) - 1).toNat = zone n := by
  have bounds := shifted_bounds h
  have few : leadingZeros n < 32 := by
    rw [leadingZeros, if_neg h]
    omega
  rw [← leadingZeros_eq_clz h, UInt32.toNat_sub, UInt32.toNat_shiftLeft, zone,
    UInt32.toNat_ofNat_of_lt' (by simp only [UInt32.size]; omega), Nat.mod_eq_of_lt few,
    Nat.shiftLeft_eq]
  simp only [UInt32.size, UInt32.toNat_one] at *
  omega

theorem isAccepted_iff_half (h : n ≠ 0) (word : UInt32) : isAccepted n word = true ↔
    (word.toUInt64 * n.toUInt64).toUInt32 ≤ (n <<< UInt32.ofNat n.toBitVec.clz.toNat) - 1 := by
  rw [UInt32.le_iff_toNat_le, toNat_zone h, UInt64.toNat_toUInt32, toNat_product, isAccepted,
    decide_eq_true_iff]

theorem scale_eq_half (n word : UInt32) :
    scale n word = ((word.toUInt64 * n.toUInt64) >>> 32).toUInt32 := by
  have high : word.toNat * n.toNat / UInt32.size < UInt32.size :=
    Nat.div_lt_of_lt_mul (product_lt n word)
  rw [← UInt32.toNat_inj, toNat_scale, UInt64.toNat_toUInt32, UInt64.toNat_shiftRight,
    toNat_product, Nat.shiftRight_eq_div_pow]
  exact (Nat.mod_eq_of_lt high).symm

/-- The least word with a multiple that reaches the given number of whole words. -/
def firstWord (n : UInt32) (k : Nat) : Nat := k * UInt32.size ⌈/⌉ n.toNat

theorem firstWord_le_iff (h : n ≠ 0) (k word : Nat) :
    firstWord n k ≤ word ↔ k * UInt32.size ≤ word * n.toNat := by
  rw [firstWord, ceilDiv_le_iff_le_mul (toNat_pos h), Nat.mul_comm word]

theorem lt_firstWord_add_iff (h : n ≠ 0) (k word : Nat) :
    word < firstWord n k + 2 ^ leadingZeros n ↔
      word * n.toNat < k * UInt32.size + n.toNat * 2 ^ leadingZeros n := by
  rcases Nat.lt_or_ge word (2 ^ leadingZeros n) with small | large
  · have := Nat.mul_lt_mul_of_pos_right small (toNat_pos h)
    rw [Nat.mul_comm n.toNat]
    omega
  · obtain ⟨rest, rfl⟩ := Nat.exists_eq_add_of_le large
    have cut := not_congr (firstWord_le_iff h k rest)
    rw [Nat.add_mul, Nat.mul_comm n.toNat]
    omega

theorem accepted_scale_iff (h : n ≠ 0) {k : UInt32} {word : UInt32} :
    (isAccepted n word = true ∧ scale n word = k) ↔
      word.toNat ∈ Set.Ico (firstWord n k.toNat) (firstWord n k.toNat + 2 ^ leadingZeros n) := by
  have whole := (shifted_bounds h).2
  rw [Set.mem_Ico, firstWord_le_iff h, lt_firstWord_add_iff h, isAccepted_iff h,
    ← UInt32.toNat_inj, toNat_scale]
  simp only [UInt32.size] at whole ⊢
  omega

/-- Every number below the size has as many words as any other. -/
theorem ncard_accepted_scale (h : n ≠ 0) {k : UInt32} (inside : k < n) :
    {word | isAccepted n word = true ∧ scale n word = k}.ncard = 2 ^ leadingZeros n := by
  have last : firstWord n k.toNat + 2 ^ leadingZeros n ≤ UInt32.size := by
    have whole := (shifted_bounds h).2
    have below := (lt_firstWord_add_iff h k.toNat UInt32.size).not
    have product := Nat.mul_le_mul_left UInt32.size (UInt32.lt_iff_toNat_lt.mp inside)
    simp only [UInt32.size, Nat.succ_eq_add_one] at *
    omega
  have image : UInt32.toNat '' {word | isAccepted n word = true ∧ scale n word = k} =
      Set.Ico (firstWord n k.toNat) (firstWord n k.toNat + 2 ^ leadingZeros n) := by
    ext word
    constructor
    · rintro ⟨word, chosen, rfl⟩
      exact (accepted_scale_iff h).mp chosen
    · intro mem
      have value : (UInt32.ofNat word).toNat = word :=
        UInt32.toNat_ofNat_of_lt' (Nat.lt_of_lt_of_le mem.2 last)
      exact ⟨UInt32.ofNat word, (accepted_scale_iff h).mpr (value.symm ▸ mem), value⟩
  rw [← Set.ncard_image_of_injective _ fun _ _ => UInt32.toNat.inj, image, Set.ncard_Ico_nat,
    Nat.add_sub_cancel_left]

theorem drop_drop (draws : Draws) (first second : Nat) :
    (draws.drop first).drop second = draws.drop (first + second) := by
  funext i
  simp only [drop, Nat.add_assoc]

theorem below_eq {draws : Draws} {i : Nat} (accepted : isAccepted n (draws i) = true)
    (rejected : ∀ j < i, isAccepted n (draws j) = false) (attempts : Nat) :
    below? n attempts draws =
      if i < attempts then some (scale n (draws i), draws.drop (i + 1)) else none := by
  induction attempts generalizing draws i with
  | zero => rfl
  | succ attempts ih =>
    cases i with
    | zero => simp [below?, accepted]
    | succ i =>
      have later (j : Nat) : draws.drop 1 j = draws (j + 1) := congrArg draws (Nat.add_comm 1 j)
      have rest := @ih (draws.drop 1) i (later i ▸ accepted) fun j before =>
        later j ▸ rejected (j + 1) (Nat.succ_lt_succ before)
      rw [below?, if_neg (by simp [rejected 0 (Nat.succ_pos i)]), rest, later, drop_drop]
      simp only [Nat.add_lt_add_iff_right, Nat.add_comm 1]

theorem below_lt (h : n ≠ 0) {attempts : Nat} {draws rest : Draws}
    {chosen : UInt32} (drawn : below? n attempts draws = some (chosen, rest)) : chosen < n := by
  induction attempts generalizing draws with
  | zero => cases drawn
  | succ attempts ih =>
    rw [below?] at drawn
    split at drawn
    · cases drawn
      exact scale_lt h _
    · exact ih drawn

end Draws

namespace RunParameters

variable {sleep : Option UInt64} {fault : Option FaultCode} {size : UInt32}

/-- Whether a choice that meets the word accepts it and lets the rank fail, whatever the words
after it are. -/
def Selects (sleep : Option UInt64) (fault : Option FaultCode) (size word : UInt32)
    (rank : Rank) : Prop :=
  ∀ (draws : Draws) (attempts : Nat), draws 0 = word →
    resolve? sleep fault size (attempts + 1) draws =
      some (.ok ⟨sleep.getD 0, fault.getD .fallback, rank⟩, draws.drop 1)

theorem resolve_eq {attempts : Nat} {draws rest : Draws}
    {choice : Except ComponentError RunParameters} (h : size ≠ 0)
    (resolves : resolve? sleep fault size attempts draws = some (choice, rest)) :
    ∃ failing : Rank, failing.index < size ∧
      choice = .ok ⟨sleep.getD 0, fault.getD .fallback, failing⟩ := by
  rw [resolve?, if_neg h] at resolves
  obtain ⟨⟨chosen, rest'⟩, drawn, he⟩ := Option.map_eq_some_iff.mp resolves
  have hlt := Draws.below_lt h drawn
  cases he
  refine ⟨⟨chosen⟩, hlt, ?_⟩
  rw [make, if_neg (UInt32.not_le.mpr hlt)]

theorem resolve_ok {attempts : Nat} {draws rest : Draws}
    {choice : Except ComponentError RunParameters} (h : size ≠ 0)
    (resolves : resolve? sleep fault size attempts draws = some (choice, rest)) :
    ∃ parameters, choice = .ok parameters ∧ parameters.failing.index < size := by
  obtain ⟨failing, hlt, chosen⟩ := resolve_eq h resolves
  exact ⟨_, chosen, hlt⟩

theorem resolve_first (h : size ≠ 0) {draws : Draws} {i : Nat}
    (accepted : Draws.isAccepted size (draws i) = true)
    (rejected : ∀ j < i, Draws.isAccepted size (draws j) = false) (attempts : Nat) :
    resolve? sleep fault size attempts draws =
      if i < attempts then
        some (.ok ⟨sleep.getD 0, fault.getD .fallback, ⟨Draws.scale size (draws i)⟩⟩,
          draws.drop (i + 1))
      else none := by
  have inside := UInt32.not_le.mpr (Draws.scale_lt h (draws i))
  rw [resolve?, if_neg h, Draws.below_eq accepted rejected]
  split
  · simp [make, inside]
  · rfl

theorem selects_iff (h : size ≠ 0) {word : UInt32} {rank : Rank} :
    Selects sleep fault size word rank ↔
      Draws.isAccepted size word = true ∧ Draws.scale size word = rank.index := by
  constructor
  · intro selects
    have only := selects (fun _ => word) 0 rfl
    rcases accepted : Draws.isAccepted size word with _ | _
    · simp [resolve?, h, Draws.below?, accepted] at only
    · rw [resolve_first h (i := 0) accepted (by omega)] at only
      cases rank
      simp_all
  · rintro ⟨accepted, scaled⟩ draws attempts rfl
    rw [resolve_first h accepted (by omega), if_pos (Nat.succ_pos attempts), scaled]

/-- Every participant of a group is chosen by equally many words and nobody else by any. The words
of the stream that choose nobody are skipped, the first other one chooses, and what comes after it
is left as it is. A choice for an empty group is refused and takes nothing from the stream. -/
theorem failing_participant_is_uniform (sleep : Option UInt64) (fault : Option FaultCode) :
    (∀ size : UInt32, size ≠ 0 →
      (∀ rank : Rank, rank.index < size →
        {word | Selects sleep fault size word rank}.ncard = 2 ^ size.toBitVec.clz.toNat) ∧
      (∀ (word : UInt32) (rank : Rank), Selects sleep fault size word rank →
        rank.index < size) ∧
      (∀ (word : UInt32) (rank : Rank), Selects sleep fault size word rank ↔
        (word.toUInt64 * size.toUInt64).toUInt32 ≤
          (size <<< UInt32.ofNat size.toBitVec.clz.toNat) - 1 ∧
        rank.index = ((word.toUInt64 * size.toUInt64) >>> 32).toUInt32) ∧
      ∀ draws : Draws, (∃ i rank, Selects sleep fault size (draws i) rank) →
        ∃ i rank, Selects sleep fault size (draws i) rank ∧
          (∀ j < i, ∀ other, ¬Selects sleep fault size (draws j) other) ∧
          ∀ attempts, resolve? sleep fault size attempts draws =
            if i < attempts then
              some (.ok ⟨sleep.getD 0, fault.getD .fallback, rank⟩, draws.drop (i + 1))
            else none) ∧
    ∀ (attempts : Nat) (draws : Draws), resolve? sleep fault 0 attempts draws =
      some (.error (.invalidSetting "group_size" "0"), draws) := by
  refine ⟨fun size inhabited => ⟨?_, ?_, ?_, ?_⟩, fun attempts draws => rfl⟩
  · intro rank inside
    rw [← Draws.leadingZeros_eq_clz inhabited, ← Draws.ncard_accepted_scale inhabited inside]
    simp only [selects_iff inhabited]
  · intro word rank selects
    rw [← ((selects_iff inhabited).mp selects).2]
    exact Draws.scale_lt inhabited word
  · intro word rank
    rw [selects_iff inhabited, Draws.isAccepted_iff_half inhabited, Draws.scale_eq_half, eq_comm]
  · rintro draws ⟨i, rank, selects⟩
    have some_accepted : ∃ i, Draws.isAccepted size (draws i) = true :=
      ⟨i, ((selects_iff inhabited).mp selects).1⟩
    have accepted := Nat.find_spec some_accepted
    have rejected := fun j (before : j < Nat.find some_accepted) =>
      Nat.find_min some_accepted before
    refine ⟨Nat.find some_accepted, ⟨Draws.scale size (draws (Nat.find some_accepted))⟩,
      (selects_iff inhabited).mpr ⟨accepted, rfl⟩, fun j before other chosen =>
        rejected j before ((selects_iff inhabited).mp chosen).1, ?_⟩
    exact resolve_first inhabited accepted fun j before => by simpa using rejected j before

theorem failing_participant_is_uniform_three :
    (3 : UInt32) ≠ 0 ∧ (⟨2⟩ : Rank).index < 3 ∧
      {word | Selects none none 3 word ⟨2⟩}.ncard = 2 ^ (3 : UInt32).toBitVec.clz.toNat ∧
      Selects none none 3 2147483648 ⟨1⟩ ∧ (⟨1⟩ : Rank).index < 3 ∧
      ∃ i rank, Selects none none 3 (Draws.ofList [4294967295, 2147483648] i) rank ∧
        (∀ j < i, ∀ other,
          ¬Selects none none 3 (Draws.ofList [4294967295, 2147483648] j) other) ∧
        ∀ attempts, resolve? none none 3 attempts (Draws.ofList [4294967295, 2147483648]) =
          if i < attempts then
            some (.ok ⟨0, .fallback, rank⟩,
              (Draws.ofList [4294967295, 2147483648]).drop (i + 1))
          else none := by
  have inhabited : (3 : UInt32) ≠ 0 := by decide
  obtain ⟨counts, inside, words, first⟩ := (failing_participant_is_uniform none none).1 3 inhabited
  have middle : Selects none none 3 2147483648 ⟨1⟩ := (words _ _).mpr (by decide)
  exact ⟨inhabited, by decide, counts ⟨2⟩ (by decide), middle, inside _ _ middle,
    first _ ⟨1, ⟨1⟩, middle⟩⟩

end RunParameters
end FaultDrill
