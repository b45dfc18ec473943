import FaultDrill.Text.Blank
import FaultDrill.Text.Numeral
set_option autoImplicit false

namespace FaultDrill.Text

variable {radix : Nat}

theorem digit_digitChar {n : Nat} (small : n < radix) (most : radix ≤ 16) :
    digit? radix n.digitChar = some n := by
  match n, small with
  | 0, h | 1, h | 2, h | 3, h | 4, h | 5, h | 6, h | 7, h | 8, h | 9, h | 10, h | 11, h | 12, h
  | 13, h | 14, h | 15, h => simp [digit?, Nat.digitChar, Option.filter, h]
  | n + 16, h => omega

theorem valueOf_append (digits : List Nat) (last : Nat) :
    valueOf radix (digits ++ [last]) = valueOf radix digits * radix + last := by
  simp [valueOf]

def digitsOf (radix n : Nat) : List Nat := (Nat.toDigits radix n).filterMap (digit? radix)

section Digits

variable (least : 1 < radix) (most : radix ≤ 16)
include least most

omit least in
theorem digitsOf_small {n : Nat} (small : n < radix) : digitsOf radix n = [n] := by
  simp [digitsOf, Nat.toDigits_of_lt_base small, digit_digitChar small most]

theorem digitsOf_large {n : Nat} (large : radix ≤ n) :
    digitsOf radix n = digitsOf radix (n / radix) ++ [n % radix] := by
  have last := digit_digitChar (Nat.mod_lt n (Nat.zero_lt_of_lt least)) most
  simp [digitsOf, Nat.toDigits_of_base_le least large, last]

theorem map_toDigits (n : Nat) :
    (Nat.toDigits radix n).map (digit? radix) = (digitsOf radix n).map some := by
  induction n using Nat.strongRecOn with
  | ind n ih =>
    rcases Nat.lt_or_ge n radix with small | large
    · simp [Nat.toDigits_of_lt_base small, digitsOf_small most small,
        digit_digitChar small most]
    · have last := digit_digitChar (Nat.mod_lt n (Nat.zero_lt_of_lt least)) most
      have fewer := ih (n / radix) (Nat.div_lt_self (by omega) least)
      simp [Nat.toDigits_of_base_le least large, digitsOf_large least most large, fewer, last]

theorem valueOf_digitsOf (n : Nat) : valueOf radix (digitsOf radix n) = n := by
  induction n using Nat.strongRecOn with
  | ind n ih =>
    rcases Nat.lt_or_ge n radix with small | large
    · simp [digitsOf_small most small, valueOf]
    · have fewer := ih (n / radix) (Nat.div_lt_self (by omega) least)
      rw [digitsOf_large least most large, valueOf_append, fewer, Nat.div_add_mod']

theorem length_digitsOf (n : Nat) : (digitsOf radix n).length = (Nat.toDigits radix n).length := by
  simpa using (congrArg List.length (map_toDigits least most n)).symm

theorem digitsOf_ne_nil (n : Nat) : digitsOf radix n ≠ [] := by
  rw [← List.length_pos_iff, length_digitsOf least most]
  exact Nat.length_toDigits_pos

theorem digitsOf_head {n : Nat} (h : (digitsOf radix n).head? = some 0) : n = 0 := by
  induction n using Nat.strongRecOn with
  | ind n ih =>
    rcases Nat.lt_or_ge n radix with small | large
    · simpa [digitsOf_small most small] using h
    · obtain ⟨first, others, digits⟩ :=
        List.exists_cons_of_ne_nil (digitsOf_ne_nil least most (n / radix))
      rw [digitsOf_large least most large, digits] at h
      have zero := ih (n / radix) (Nat.div_lt_self (by omega) least) (by rw [digits]; exact h)
      have := Nat.div_pos large (by omega)
      omega

theorem isSome_toDigits {n : Nat} {c : Char} (h : c ∈ Nat.toDigits radix n) :
    (digit? radix c).isSome = true := by
  have mapped : digit? radix c ∈ (digitsOf radix n).map some := by
    rw [← map_toDigits least most]
    exact List.mem_map_of_mem h
  obtain ⟨value, -, he⟩ := List.mem_map.mp mapped
  simp [← he]

end Digits

theorem mapM_some {α β : Type} {f : α → Option β} {items : List α} {values : List β}
    (h : items.map f = values.map some) : items.mapM f = some values := by
  induction items generalizing values with
  | nil =>
    cases values with
    | nil => rfl
    | cons => cases h
  | cons item items ih =>
    cases values with
    | nil => cases h
    | cons value values =>
      obtain ⟨first, others⟩ := List.cons.inj h
      simp [first, ih others]

theorem readDigits_toDigits (n : Nat) : readDigits? (Nat.toDigits 10 n) = some n := by
  have digits := mapM_some (@map_toDigits 10 (by decide) (by decide) n)
  simp [readDigits?, digits, valueOf_digitsOf]

theorem readUnsigned_toDigits (bound n : Nat) :
    readUnsigned? bound (Nat.toDigits 10 n) = if n < bound then some n else none := by
  have unsigned : ∀ rest, Nat.toDigits 10 n ≠ '+' :: rest := by
    intro rest h
    have plus := @isSome_toDigits 10 (by decide) (by decide) n '+'
    simp [h, digit?] at plus
  unfold readUnsigned?
  split
  · rename_i rest h
    exact absurd h (unsigned rest)
  · by_cases h : n < bound <;> simp [readDigits_toDigits, Option.filter, h]

theorem digit_range {c : Char} (h : (digit? radix c).isSome = true) :
    48 ≤ c.toNat ∧ c.toNat ≤ 102 := by
  unfold digit? at h
  split at h
  · rename_i range
    simp only [Char.le_def, UInt32.le_iff_toNat_le] at range
    exact ⟨range.1, Nat.le_trans range.2 (by decide)⟩
  · split at h
    · rename_i range
      simp only [Char.le_def, UInt32.le_iff_toNat_le] at range
      exact ⟨Nat.le_trans (by decide) range.1, range.2⟩
    · split at h
      · rename_i range
        simp only [Char.le_def, UInt32.le_iff_toNat_le] at range
        exact ⟨Nat.le_trans (by decide) range.1, Nat.le_trans range.2 (by decide)⟩
      · simp at h

theorem printing_not_blank {c : Char} (low : 33 ≤ c.toNat) (high : c.toNat ≤ 126) :
    isBlank c = false := by
  simp [isBlank, blankRanges]
  omega

theorem trim_eq {text : List Char} (head : ∀ c ∈ text.head?, isBlank c = false)
    (last : ∀ c ∈ text.getLast?, isBlank c = false) : trim text = text := by
  have start : trimStart text = text := by
    cases text with
    | nil => rfl
    | cons c rest => simp [trimStart, head c rfl]
  have stop : trimEnd text = text := by
    rw [List.getLast?_eq_head?_reverse] at last
    cases h : text.reverse with
    | nil => simp [trimEnd, List.reverse_eq_nil_iff.mp h]
    | cons c rest =>
      have keep := last c (by rw [h]; rfl)
      rw [trimEnd, h, List.dropWhile_cons_of_neg (by simp [keep]), ← h, List.reverse_reverse]
  rw [trim, start, stop]

theorem digit_not_blank {c : Char} (h : (digit? radix c).isSome = true) : isBlank c = false := by
  obtain ⟨low, high⟩ := digit_range h
  exact printing_not_blank (by omega) (by omega)

theorem trim_number {front : List Char} {n : Nat}
    (head : ∀ c ∈ front.head?, isBlank c = false) :
    trim (front ++ Nat.toDigits 10 n) = front ++ Nat.toDigits 10 n := by
  have digits : ∀ c ∈ Nat.toDigits 10 n, isBlank c = false := fun c hc =>
    digit_not_blank (isSome_toDigits (by decide) (by decide) hc)
  apply trim_eq
  · cases front with
    | nil => exact fun c hc => digits c (List.mem_of_mem_head? hc)
    | cons first front => exact head
  · intro c hc
    rw [List.getLast?_append, List.getLast?_eq_some_getLast Nat.toDigits_ne_nil] at hc
    cases hc
    exact digits _ (List.getLast_mem _)

theorem trim_toDigits (n : Nat) : trim (Nat.toDigits 10 n) = Nat.toDigits 10 n :=
  @trim_number [] n (by simp)

end FaultDrill.Text
