import FaultDrill.Text.Utf8
set_option autoImplicit false

namespace FaultDrill.Text.Utf8

theorem assemble_of_value (c : Char) (leading : Nat) (following : List UInt8)
    (h : following.foldl (fun value b => value * 64 + b.toNat % 64) leading = c.toNat) :
    assemble leading following = c := by
  rw [assemble, h, Char.ofNat_toNat]

theorem toNat_continuation (n : Nat) : (UInt8.ofNat (n % 64 + 0x80)).toNat = n % 64 + 0x80 := by
  rw [UInt8.toNat_ofNat']
  omega

theorem isContinuation_ofNat (n : Nat) :
    isContinuation (UInt8.ofNat (n % 64 + 0x80)) = true := by
  simp only [isContinuation, Bool.and_eq_true, decide_eq_true_eq, UInt8.le_iff_toNat_le,
    toNat_continuation, UInt8.reduceToNat]
  omega

theorem lead_two (a : UInt8) (low : 0xC2 ≤ a.toNat) (high : a.toNat < 0xE0) :
    lead? a = some (2, 0x80, 0xBF) := by
  have h1 : ¬ a < 0xC2 := by rw [UInt8.lt_iff_toNat_lt]; simpa using low
  have h2 : a < 0xE0 := by rw [UInt8.lt_iff_toNat_lt]; simpa using high
  simp [lead?, h1, h2]

/-- The leading byte of a character of three bytes, and the interval of the second one. Overlong
forms are excluded by the lower bound and surrogates by the upper one. -/
theorem lead_three (v : Nat) (low : 0x800 ≤ v) (high : v < 0x10000)
    (valid : v < 0xD800 ∨ 0xDFFF < v) :
    ∃ first last, lead? (UInt8.ofNat (v / 4096 % 16 + 0xE0)) = some (3, first, last) ∧
      first.toNat ≤ v / 64 % 64 + 0x80 ∧ v / 64 % 64 + 0x80 ≤ last.toNat := by
  have ha : (UInt8.ofNat (v / 4096 % 16 + 0xE0)).toNat = v / 4096 % 16 + 0xE0 := by
    rw [UInt8.toNat_ofNat']; omega
  generalize UInt8.ofNat (v / 4096 % 16 + 0xE0) = a at ha
  have h1 : ¬ a < 0xC2 := by simp only [UInt8.lt_iff_toNat_lt, UInt8.reduceToNat]; omega
  have h2 : ¬ a < 0xE0 := by simp only [UInt8.lt_iff_toNat_lt, UInt8.reduceToNat]; omega
  have h3 : a < 0xF0 := by simp only [UInt8.lt_iff_toNat_lt, UInt8.reduceToNat]; omega
  by_cases hE0 : a = 0xE0
  · have : a.toNat = 0xE0 := by rw [hE0]; rfl
    exact ⟨0xA0, 0xBF, by simp [lead?, hE0], by simp only [UInt8.reduceToNat]; omega,
      by simp only [UInt8.reduceToNat]; omega⟩
  · by_cases hED : a = 0xED
    · have : a.toNat = 0xED := by rw [hED]; rfl
      exact ⟨0x80, 0x9F, by simp [lead?, hED], by simp only [UInt8.reduceToNat]; omega,
        by simp only [UInt8.reduceToNat]; omega⟩
    · exact ⟨0x80, 0xBF, by simp [lead?, h1, h2, h3, hE0, hED],
        by simp only [UInt8.reduceToNat]; omega,
        by simp only [UInt8.reduceToNat]; omega⟩

theorem lead_four (v : Nat) (low : 0x10000 ≤ v) (high : v < 0x110000) :
    ∃ first last, lead? (UInt8.ofNat (v / 262144 % 8 + 0xF0)) = some (4, first, last) ∧
      first.toNat ≤ v / 4096 % 64 + 0x80 ∧ v / 4096 % 64 + 0x80 ≤ last.toNat := by
  have ha : (UInt8.ofNat (v / 262144 % 8 + 0xF0)).toNat = v / 262144 % 8 + 0xF0 := by
    rw [UInt8.toNat_ofNat']; omega
  generalize UInt8.ofNat (v / 262144 % 8 + 0xF0) = a at ha
  have h1 : ¬ a < 0xC2 := by simp only [UInt8.lt_iff_toNat_lt, UInt8.reduceToNat]; omega
  have h2 : ¬ a < 0xE0 := by simp only [UInt8.lt_iff_toNat_lt, UInt8.reduceToNat]; omega
  have h3 : ¬ a < 0xF0 := by simp only [UInt8.lt_iff_toNat_lt, UInt8.reduceToNat]; omega
  have hE0 : a ≠ 0xE0 := by rintro rfl; simp only [UInt8.reduceToNat] at ha; omega
  have hED : a ≠ 0xED := by rintro rfl; simp only [UInt8.reduceToNat] at ha; omega
  by_cases hF0 : a = 0xF0
  · have : a.toNat = 0xF0 := by rw [hF0]; rfl
    exact ⟨0x90, 0xBF, by simp [lead?, hF0], by simp only [UInt8.reduceToNat]; omega,
      by simp only [UInt8.reduceToNat]; omega⟩
  · by_cases hF4 : a < 0xF4
    · exact ⟨0x80, 0xBF, by simp [lead?, h1, h2, h3, hE0, hED, hF0, hF4],
        by simp only [UInt8.reduceToNat]; omega, by simp only [UInt8.reduceToNat]; omega⟩
    · have h5 : ¬ a.toNat < 0xF4 := by simpa [UInt8.lt_iff_toNat_lt] using hF4
      have h6 : a = 0xF4 := UInt8.toNat.inj (by simp only [UInt8.reduceToNat]; omega)
      exact ⟨0x80, 0x8F, by simp [lead?, h6], by simp only [UInt8.reduceToNat]; omega,
        by simp only [UInt8.reduceToNat]; omega⟩

theorem not_ascii {a : UInt8} {width : Nat} {low high : UInt8}
    (h : lead? a = some (width, low, high)) : ¬ a < 0x80 := by
  intro ha
  have h2 : a < 0xC2 := by
    simp only [UInt8.lt_iff_toNat_lt, UInt8.reduceToNat] at ha ⊢
    omega
  simp [lead?, h2] at h

theorem in_interval {low high : UInt8} {n : Nat} (h1 : low.toNat ≤ n % 64 + 0x80)
    (h2 : n % 64 + 0x80 ≤ high.toNat) :
    (UInt8.ofNat (n % 64 + 0x80) < low || high < UInt8.ofNat (n % 64 + 0x80)) = false := by
  simp only [Bool.or_eq_false_iff, decide_eq_false_iff_not, UInt8.lt_iff_toNat_lt,
    toNat_continuation]
  omega

theorem decodeFrom_encodeChar (c : Char) (index : Nat) (before : List Char) (rest : List UInt8) :
    ∃ after, decodeFrom index before (String.utf8EncodeChar c ++ rest) =
      decodeFrom after (c :: before) rest := by
  have hv : c.val.toNat = c.toNat := rfl
  have hvalid := c.valid
  simp only [UInt32.isValidChar, Nat.isValidChar, hv] at hvalid
  unfold String.utf8EncodeChar
  simp only [hv]
  split
  · have ha : (UInt8.ofNat c.toNat).toNat = c.toNat := by rw [UInt8.toNat_ofNat']; omega
    have hlt : UInt8.ofNat c.toNat < 0x80 := by
      simp only [UInt8.lt_iff_toNat_lt, ha, UInt8.reduceToNat]; omega
    refine ⟨index + 1, ?_⟩
    rw [List.cons_append, List.nil_append, decodeFrom, if_pos hlt,
      assemble_of_value c (UInt8.ofNat c.toNat).toNat [] ha]
  · split
    · have ha : (UInt8.ofNat (c.toNat / 64 % 32 + 0xC0)).toNat = c.toNat / 64 % 32 + 0xC0 := by
        rw [UInt8.toNat_ofNat']; omega
      have hlead := lead_two (UInt8.ofNat (c.toNat / 64 % 32 + 0xC0)) (by omega) (by omega)
      have hin : (UInt8.ofNat (c.toNat % 64 + 0x80) < 0x80 ||
          0xBF < UInt8.ofNat (c.toNat % 64 + 0x80)) = false :=
        in_interval (by simp only [UInt8.reduceToNat]; omega)
          (by simp only [UInt8.reduceToNat]; omega)
      have hc := assemble_of_value c (c.toNat / 64 % 32) [UInt8.ofNat (c.toNat % 64 + 0x80)]
        (by simp only [List.foldl, toNat_continuation]; omega)
      have hm : (c.toNat / 64 % 32 + 0xC0) % 32 = c.toNat / 64 % 32 := by omega
      refine ⟨index + 2, ?_⟩
      simp only [List.cons_append, List.nil_append, decodeFrom, if_neg (not_ascii hlead), hlead,
        hin, ha, hm, hc, if_true, Bool.false_eq_true, if_false]
    · split
      · obtain ⟨low, high, hlead, hlow, hhigh⟩ :=
          lead_three c.toNat (by omega) (by omega) (by omega)
        have ha : (UInt8.ofNat (c.toNat / 4096 % 16 + 0xE0)).toNat =
            c.toNat / 4096 % 16 + 0xE0 := by
          rw [UInt8.toNat_ofNat']; omega
        have hc := assemble_of_value c (c.toNat / 4096 % 16)
          [UInt8.ofNat (c.toNat / 64 % 64 + 0x80), UInt8.ofNat (c.toNat % 64 + 0x80)]
          (by simp only [List.foldl, toNat_continuation]; omega)
        have hm : (c.toNat / 4096 % 16 + 0xE0) % 16 = c.toNat / 4096 % 16 := by omega
        refine ⟨index + 3, ?_⟩
        simp only [List.cons_append, List.nil_append, decodeFrom, if_neg (not_ascii hlead), hlead,
          in_interval hlow hhigh, isContinuation_ofNat, ha, hm, hc, Bool.not_true,
          Bool.false_eq_true, if_false, if_true, Nat.reduceEqDiff]
      · obtain ⟨low, high, hlead, hlow, hhigh⟩ := lead_four c.toNat (by omega) (by omega)
        have ha : (UInt8.ofNat (c.toNat / 262144 % 8 + 0xF0)).toNat =
            c.toNat / 262144 % 8 + 0xF0 := by
          rw [UInt8.toNat_ofNat']; omega
        have hc := assemble_of_value c (c.toNat / 262144 % 8)
          [UInt8.ofNat (c.toNat / 4096 % 64 + 0x80), UInt8.ofNat (c.toNat / 64 % 64 + 0x80),
            UInt8.ofNat (c.toNat % 64 + 0x80)]
          (by simp only [List.foldl, toNat_continuation]; omega)
        have hm : (c.toNat / 262144 % 8 + 0xF0) % 8 = c.toNat / 262144 % 8 := by omega
        refine ⟨index + 4, ?_⟩
        simp only [List.cons_append, List.nil_append, decodeFrom, if_neg (not_ascii hlead), hlead,
          in_interval hlow hhigh, isContinuation_ofNat, ha, hm, hc, Bool.not_true,
          Bool.false_eq_true, if_false, Nat.reduceEqDiff]

theorem decodeFrom_flatMap (chars before : List Char) (index : Nat) :
    decodeFrom index before (chars.flatMap String.utf8EncodeChar) =
      .ok (before.reverse ++ chars) := by
  induction chars generalizing before index with
  | nil => simp [decodeFrom]
  | cons c chars ih =>
    obtain ⟨after, h⟩ :=
      decodeFrom_encodeChar c index before (chars.flatMap String.utf8EncodeChar)
    rw [List.flatMap_cons, h, ih]
    simp

theorem decode_encode (text : String) : decode (encode text) = .ok text := by
  rw [decode, encode, decodeFrom_flatMap, List.reverse_nil, List.nil_append]
  exact congrArg Except.ok String.ofList_toList

theorem toNat_ofNat_char {n : Nat} (valid : n.isValidChar) : (Char.ofNat n).toNat = n := by
  rw [Char.ofNat, dif_pos valid]
  rfl

theorem lead_cases {a low high : UInt8} {width : Nat} (h : lead? a = some (width, low, high))
    {n : Nat} (least : low.toNat ≤ n) (most : n ≤ high.toNat) :
    (0x80 ≤ n ∧ n ≤ 0xBF) ∧
      (width = 2 ∧ 0xC2 ≤ a.toNat ∧ a.toNat < 0xE0 ∨
        width = 3 ∧ 0xE0 ≤ a.toNat ∧ a.toNat < 0xF0 ∧
          ¬(a.toNat = 0xE0 ∧ n < 0xA0) ∧ ¬(a.toNat = 0xED ∧ 0x9F < n) ∨
        width = 4 ∧ 0xF0 ≤ a.toNat ∧ a.toNat < 0xF5 ∧
          ¬(a.toNat = 0xF0 ∧ n < 0x90) ∧ ¬(a.toNat = 0xF4 ∧ 0x8F < n)) := by
  simp only [lead?, UInt8.lt_iff_toNat_lt, ← UInt8.toNat_inj, UInt8.reduceToNat] at h
  repeat' split at h
  all_goals cases h
  all_goals
    simp only [UInt8.reduceToNat] at least most
    omega

theorem ofNat_eq_of_toNat {a : UInt8} {n : Nat} (h : n = a.toNat) : UInt8.ofNat n = a := by
  rw [h, UInt8.ofNat_toNat]

theorem encodeChar_one {a : UInt8} (ascii : a.toNat < 0x80) :
    String.utf8EncodeChar (assemble a.toNat []) = [a] := by
  have hc : (assemble a.toNat []).toNat = a.toNat :=
    toNat_ofNat_char (.inl (by simp only [List.foldl]; omega))
  have hv : (assemble a.toNat []).val.toNat = a.toNat := hc
  unfold String.utf8EncodeChar
  simp only [hv]
  rw [if_pos (by omega), UInt8.ofNat_toNat]

theorem encodeChar_two {a b : UInt8} (ha : 0xC2 ≤ a.toNat) (ha' : a.toNat < 0xE0)
    (hb : 0x80 ≤ b.toNat) (hb' : b.toNat ≤ 0xBF) :
    String.utf8EncodeChar (assemble (a.toNat % 32) [b]) = [a, b] := by
  have hv : (assemble (a.toNat % 32) [b]).val.toNat = a.toNat % 32 * 64 + b.toNat % 64 :=
    toNat_ofNat_char (.inl (by simp only [List.foldl]; omega))
  unfold String.utf8EncodeChar
  simp only [hv]
  rw [if_neg (by omega), if_pos (by omega), ofNat_eq_of_toNat (a := a) (by omega),
    ofNat_eq_of_toNat (a := b) (by omega)]

theorem encodeChar_three {a b c : UInt8} (ha : 0xE0 ≤ a.toNat) (ha' : a.toNat < 0xF0)
    (hb : 0x80 ≤ b.toNat) (hb' : b.toNat ≤ 0xBF) (overlong : ¬(a.toNat = 0xE0 ∧ b.toNat < 0xA0))
    (surrogate : ¬(a.toNat = 0xED ∧ 0x9F < b.toNat))
    (hc : 0x80 ≤ c.toNat) (hc' : c.toNat ≤ 0xBF) :
    String.utf8EncodeChar (assemble (a.toNat % 16) [b, c]) = [a, b, c] := by
  have hv : (assemble (a.toNat % 16) [b, c]).val.toNat =
      (a.toNat % 16 * 64 + b.toNat % 64) * 64 + c.toNat % 64 :=
    toNat_ofNat_char (by simp only [List.foldl, Nat.isValidChar]; omega)
  unfold String.utf8EncodeChar
  simp only [hv]
  rw [if_neg (by omega), if_neg (by omega), if_pos (by omega),
    ofNat_eq_of_toNat (a := a) (by omega), ofNat_eq_of_toNat (a := b) (by omega),
    ofNat_eq_of_toNat (a := c) (by omega)]

theorem encodeChar_four {a b c d : UInt8} (ha : 0xF0 ≤ a.toNat) (ha' : a.toNat < 0xF5)
    (hb : 0x80 ≤ b.toNat) (hb' : b.toNat ≤ 0xBF) (overlong : ¬(a.toNat = 0xF0 ∧ b.toNat < 0x90))
    (last : ¬(a.toNat = 0xF4 ∧ 0x8F < b.toNat))
    (hc : 0x80 ≤ c.toNat) (hc' : c.toNat ≤ 0xBF) (hd : 0x80 ≤ d.toNat) (hd' : d.toNat ≤ 0xBF) :
    String.utf8EncodeChar (assemble (a.toNat % 8) [b, c, d]) = [a, b, c, d] := by
  have hv : (assemble (a.toNat % 8) [b, c, d]).val.toNat =
      ((a.toNat % 8 * 64 + b.toNat % 64) * 64 + c.toNat % 64) * 64 + d.toNat % 64 :=
    toNat_ofNat_char (by simp only [List.foldl, Nat.isValidChar]; omega)
  unfold String.utf8EncodeChar
  simp only [hv]
  rw [if_neg (by omega), if_neg (by omega), if_neg (by omega),
    ofNat_eq_of_toNat (a := a) (by omega), ofNat_eq_of_toNat (a := b) (by omega),
    ofNat_eq_of_toNat (a := c) (by omega), ofNat_eq_of_toNat (a := d) (by omega)]

theorem toNat_continuation_of {b : UInt8} (h : ¬(!isContinuation b) = true) :
    0x80 ≤ b.toNat ∧ b.toNat ≤ 0xBF := by
  simpa [isContinuation, UInt8.le_iff_toNat_le] using h

theorem toNat_second {b low high : UInt8} (h : ¬(decide (b < low) || decide (high < b)) = true) :
    low.toNat ≤ b.toNat ∧ b.toNat ≤ high.toNat := by
  simpa [UInt8.lt_iff_toNat_lt] using h

theorem encode_of_decodeFrom {index : Nat} {before chars : List Char} {bytes : List UInt8}
    (h : decodeFrom index before bytes = .ok chars) :
    ∃ after, chars = before.reverse ++ after ∧ bytes = after.flatMap String.utf8EncodeChar := by
  -- One more character in front of those that the rest of the bytes are read as.
  have extend : ∀ {before : List Char} {c : Char} {first rest : List UInt8},
      String.utf8EncodeChar c = first →
      (∃ after, chars = (c :: before).reverse ++ after ∧
        rest = after.flatMap String.utf8EncodeChar) →
      ∃ after, chars = before.reverse ++ after ∧
        first ++ rest = after.flatMap String.utf8EncodeChar := by
    rintro before c first rest rfl ⟨after, rfl, rfl⟩
    exact ⟨c :: after, by simp, by simp⟩
  fun_induction decodeFrom index before bytes with
  | case1 index before =>
    cases h
    exact ⟨[], by simp, rfl⟩
  | case2 index before a rest ascii ih =>
    have ha : a.toNat < 0x80 := by simpa [UInt8.lt_iff_toNat_lt] using ascii
    exact extend (encodeChar_one ha) (ih h)
  | case6 index before a _ low high b rest second lead ih =>
    obtain ⟨least, most⟩ := toNat_second second
    obtain ⟨⟨hb, hb'⟩, hlead⟩ := lead_cases lead least most
    exact extend (encodeChar_two (by omega) (by omega) hb hb') (ih h)
  | case9 index before a _ low high b second c rest third lead _ ih =>
    obtain ⟨least, most⟩ := toNat_second second
    obtain ⟨⟨hb, hb'⟩, hlead⟩ := lead_cases lead least most
    obtain ⟨hc, hc'⟩ := toNat_continuation_of third
    exact extend (encodeChar_three (by omega) (by omega) hb hb' (by omega) (by omega) hc hc') (ih h)
  | case12 index before a _ width low high lead b second notTwo c third notThree d rest fourth ih =>
    obtain ⟨least, most⟩ := toNat_second second
    obtain ⟨⟨hb, hb'⟩, hlead⟩ := lead_cases lead least most
    obtain ⟨hc, hc'⟩ := toNat_continuation_of third
    obtain ⟨hd, hd'⟩ := toNat_continuation_of fourth
    exact extend (encodeChar_four (by omega) (by omega) hb hb' (by omega) (by omega) hc hc' hd hd')
      (ih h)
  | case3 | case4 | case5 | case7 | case8 | case10 | case11 => cases h

theorem encode_of_decode {bytes : List UInt8} {text : String} (h : decode bytes = .ok text) :
    bytes = encode text := by
  unfold decode at h
  cases hd : decodeFrom 0 [] bytes with
  | error fault =>
    rw [hd] at h
    cases h
  | ok chars =>
    rw [hd] at h
    cases h
    obtain ⟨after, rfl, rfl⟩ := encode_of_decodeFrom hd
    simp [encode]

end FaultDrill.Text.Utf8
