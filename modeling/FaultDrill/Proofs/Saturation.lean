import Mathlib.Algebra.Group.Int.Defs
import FaultDrill.Proofs.Numeral
import FaultDrill.Proofs.Utf8
import FaultDrill.Serial
set_option autoImplicit false

/-!
# The number at the front of a text

Reading it with a value that stops growing gives the nearest number of 32 bits to the number that
is written there, however many digits it has. The reading can be done over the bytes of the text
in words of 64 bits: no operation leaves them, and what follows a sign begins with a character.
-/
namespace FaultDrill

namespace Text

theorem isDecimalDigit_iff {c : Char} :
    isDecimalDigit c = true ↔ 48 ≤ c.toNat ∧ c.toNat ≤ 57 := by
  rw [isDecimalDigit, Bool.and_eq_true, decide_eq_true_iff, decide_eq_true_iff, Char.le_def,
    Char.le_def, UInt32.le_iff_toNat_le, UInt32.le_iff_toNat_le]
  rfl

theorem isDecimalDigit_eq : isDecimalDigit = Char.isDigit := by
  funext c
  exact (Bool.and_comm ..).trans (Bool.and_comm ..)

theorem digit_decimal {c : Char} (h : isDecimalDigit c = true) :
    digit? 10 c = some (c.toNat - 48) := by
  have range : '0' ≤ c ∧ c ≤ '9' := by simpa [isDecimalDigit] using h
  have := isDecimalDigit_iff.mp h
  simp [digit?, range, Option.filter]
  omega

namespace Utf8

/-- Where a text can be cut: at its ends and where a character begins. -/
def isBoundary (bytes : List UInt8) (index : Nat) : Bool :=
  index == 0 || bytes[index]?.elim (index == bytes.length) fun byte => !isContinuation byte

def sliceFrom? (bytes : List UInt8) (index : Nat) : Option (List UInt8) :=
  if isBoundary bytes index then some (bytes.drop index) else none

theorem encodeChar_cases (c : Char) :
    (c.toNat < 0x80 ∧ String.utf8EncodeChar c = [UInt8.ofNat c.toNat]) ∨
      ∃ first others, String.utf8EncodeChar c = first :: others ∧
        0x80 ≤ c.toNat ∧ 0xC0 ≤ first.toNat := by
  have value : c.val.toNat = c.toNat := rfl
  unfold String.utf8EncodeChar
  simp only [value]
  split
  · exact .inl ⟨by omega, rfl⟩
  · right
    split
    · exact ⟨_, _, rfl, by omega, by rw [UInt8.toNat_ofNat']; omega⟩
    · split
      · exact ⟨_, _, rfl, by omega, by rw [UInt8.toNat_ofNat']; omega⟩
      · exact ⟨_, _, rfl, by omega, by rw [UInt8.toNat_ofNat']; omega⟩

theorem boundary_after (first : UInt8) (chars : List Char) :
    isBoundary (first :: chars.flatMap String.utf8EncodeChar) 1 = true := by
  cases chars with
  | nil => rfl
  | cons c chars =>
    rcases encodeChar_cases c with ⟨ascii, bytes⟩ | ⟨second, others, bytes, -, lead⟩
    · have small : c.toNat % 256 = c.toNat := by omega
      simp [isBoundary, isContinuation, bytes, UInt8.le_iff_toNat_le, small]
      omega
    · simp [isBoundary, isContinuation, bytes, UInt8.le_iff_toNat_le]
      omega

theorem head_encoded (chars : List Char) (byte : UInt8) (ascii : byte.toNat < 0x80) :
    (chars.flatMap String.utf8EncodeChar).head? = some byte ↔
      chars.head? = some (Char.ofNat byte.toNat) := by
  cases chars with
  | nil => simp
  | cons c chars =>
    have valid : (Char.ofNat byte.toNat).toNat = byte.toNat :=
      toNat_ofNat_char (.inl (by omega))
    have back : c = Char.ofNat byte.toNat ↔ c.toNat = byte.toNat := by
      rw [← Char.toNat_inj, valid]
    rcases encodeChar_cases c with ⟨small, bytes⟩ | ⟨first, others, bytes, large, lead⟩
    · have low : c.toNat % 256 = c.toNat := by omega
      simp [bytes, back, ← UInt8.toNat_inj, low]
    · simp only [List.flatMap_cons, bytes, List.cons_append, List.head?_cons, Option.some.injEq,
        back, ← UInt8.toNat_inj]
      omega

end Utf8
end Text

namespace Serial
open Text

def cap : Int := 2147483648

def append (value : Int) (digit : Char) : Int := value * 10 + (digit.toNat - '0'.toNat : Nat)

theorem accumulate_eq (value : Int) (digit : Char) :
    accumulate value digit = min (append value digit) cap := rfl

theorem append_nonneg {value : Int} (h : 0 ≤ value) (digit : Char) : 0 ≤ append value digit := by
  unfold append
  omega

/-- The value may be cut to the cap before a digit is taken as well as after it. -/
theorem accumulate_min {value : Int} (h : 0 ≤ value) (digit : Char) :
    accumulate (min value cap) digit = min (append value digit) cap := by
  simp only [accumulate_eq, append, cap]
  omega

theorem foldl_accumulate {value : Int} (h : 0 ≤ value) (digits : List Char) :
    digits.foldl accumulate (min value cap) = min (digits.foldl append value) cap := by
  induction digits generalizing value with
  | nil => rfl
  | cons digit digits ih =>
    rw [List.foldl_cons, List.foldl_cons, accumulate_min h, ih (append_nonneg h digit)]

theorem accumulated_bounds {value : Int} (low : 0 ≤ value) (high : value ≤ cap)
    (digits : List Char) :
    0 ≤ digits.foldl accumulate value ∧ digits.foldl accumulate value ≤ cap := by
  induction digits generalizing value with
  | nil => exact ⟨low, high⟩
  | cons digit digits ih =>
    have grown := append_nonneg low digit
    rw [List.foldl_cons, accumulate_eq]
    exact ih (by simp only [cap]; omega) (Int.min_le_right _ _)

theorem foldl_append_eq {digits : List Char} (h : ∀ c ∈ digits, isDecimalDigit c = true)
    (value : Nat) :
    digits.foldl append value =
      ((digits.filterMap (digit? 10)).foldl (fun sum digit => sum * 10 + digit) value : Nat) := by
  induction digits generalizing value with
  | nil => rfl
  | cons digit digits ih =>
    have here := digit_decimal (h digit List.mem_cons_self)
    have next : append value digit = (value * 10 + (digit.toNat - 48) : Nat) := by
      simp [append]
    rw [List.foldl_cons, next, ih fun c hc => h c (List.mem_cons_of_mem _ hc),
      List.filterMap_cons_some here, List.foldl_cons]

def digitsAt (cs : List Char) : List Char := cs.takeWhile isDecimalDigit

theorem mem_digitsAt {cs : List Char} {c : Char} (h : c ∈ digitsAt cs) :
    isDecimalDigit c = true := List.all_eq_true.mp List.all_takeWhile c h

theorem magnitude_eq (cs : List Char) :
    magnitude cs = min (valueOf 10 ((digitsAt cs).filterMap (digit? 10)) : Int) cap := by
  have whole := foldl_append_eq (fun _ => @mem_digitsAt cs _) 0
  have start : (0 : Int) = min 0 cap := by decide
  rw [magnitude, start, foldl_accumulate (Int.le_refl 0)]
  exact congrArg (min · cap) whole

theorem clamp_magnitude (cs : List Char) :
    clamp (magnitude cs) = clamp (valueOf 10 ((digitsAt cs).filterMap (digit? 10))) ∧
      clamp (-magnitude cs) = clamp (-valueOf 10 ((digitsAt cs).filterMap (digit? 10))) := by
  have least : Int32.minValue.toInt = -2147483648 := rfl
  have most : Int32.maxValue.toInt = 2147483647 := rfl
  simp only [magnitude_eq, clamp, cap, least, most]
  omega

/-- The code points with the Unicode property `White_Space`. -/
def whiteSpace : List Nat :=
  [0x09, 0x0A, 0x0B, 0x0C, 0x0D, 0x20, 0x85, 0xA0, 0x1680, 0x2000, 0x2001, 0x2002, 0x2003, 0x2004,
    0x2005, 0x2006, 0x2007, 0x2008, 0x2009, 0x200A, 0x2028, 0x2029, 0x202F, 0x205F, 0x3000]

theorem isBlank_eq : isBlank = fun c => whiteSpace.contains c.toNat := by
  funext c
  rw [Bool.eq_iff_iff]
  simp [isBlank, blankRanges, whiteSpace]
  omega

/-- The number at the front of a text, however large it is: what comes after white space, with at
most one sign, and zero without a digit. -/
def written (text : String) : Int :=
  let trimmed := text.toList.dropWhile fun c => whiteSpace.contains c.toNat
  let signed := trimmed.head? = some '-' ∨ trimmed.head? = some '+'
  let digits := (if signed then trimmed.tail else trimmed).takeWhile Char.isDigit
  let value := valueOf 10 (digits.filterMap (digit? 10))
  if trimmed.head? = some '-' then -value else value

theorem toInt_ofInt_clamp (value : Int) : (Int32.ofInt (clamp value)).toInt = clamp value := by
  have least : Int32.minValue.toInt = -2147483648 := rfl
  have most : Int32.maxValue.toInt = 2147483647 := rfl
  apply Int32.toInt_ofInt_of_le <;> simp only [clamp, least, most] <;> omega

theorem head_ne {cs : List Char} {c : Char} (h : ∀ rest, cs = c :: rest → False) :
    cs.head? ≠ some c := fun front =>
  have ⟨rest, cons⟩ := List.head?_eq_some_iff.mp front
  h rest cons

theorem leadingInteger_eq (text : String) :
    (leadingInteger text).toInt = clamp (written text) := by
  unfold leadingInteger written
  rw [toInt_ofInt_clamp, ← isDecimalDigit_eq, ← isBlank_eq]
  unfold trimStart
  split
  · rename_i rest front
    simp [front, (clamp_magnitude rest).2, digitsAt]
  · rename_i rest front
    simp [front, (clamp_magnitude rest).1, digitsAt]
  · rename_i minus plus
    simp [head_ne minus, head_ne plus, (clamp_magnitude _).1, digitsAt]

theorem toInt_sleepSeconds (text : String) :
    ((sleepSeconds text).toNat : Int) = max 0 (leadingInteger text).toInt := by
  have range := (leadingInteger text).toInt_lt
  have small : (leadingInteger text).toInt.toNat < UInt64.size := by
    simp only [UInt64.size]
    omega
  rw [sleepSeconds, UInt64.toNat_ofNat_of_lt' small]
  omega

def word? (value : Int) : Option Int64 :=
  if Int64.minValue.toInt ≤ value ∧ value ≤ Int64.maxValue.toInt then some (.ofInt value) else none

def isDigitByte (byte : UInt8) : Bool := 0x30 ≤ byte && byte ≤ 0x39

/-- Takes the digit of a byte, if neither the product nor the sum leaves the word. -/
def accumulateWord? (value : Int64) (byte : UInt8) : Option Int64 := do
  let shifted ← word? (value.toInt * 10)
  let grown ← word? (shifted.toInt + (byte - 0x30).toNat)
  return min grown 2147483648

def signedWord? (negative : Bool) (bytes : List UInt8) : Option Int32 := do
  let value ← (bytes.takeWhile isDigitByte).foldlM accumulateWord? 0
  let value ← if negative then word? (-value.toInt) else some value
  return .ofInt (clamp value.toInt)

/-- Reads the number at the front of a text as its bytes show it. There is no answer when an
operation leaves the word, and when what follows a sign is cut off inside a character. -/
def leadingWord? (text : String) : Option Int32 :=
  let trimmed := (trimStart text.toList).flatMap String.utf8EncodeChar
  match trimmed.head? with
  | some 0x2D => (Utf8.sliceFrom? trimmed 1).bind (signedWord? true)
  | some 0x2B => (Utf8.sliceFrom? trimmed 1).bind (signedWord? false)
  | _ => signedWord? false trimmed

def digitByte (c : Char) : UInt8 := UInt8.ofNat c.toNat

theorem word_eq (value : Int) (low : -9223372036854775808 ≤ value)
    (high : value ≤ 9223372036854775807) :
    ∃ word, word? value = some word ∧ word.toInt = value := by
  refine ⟨_, if_pos ⟨low, high⟩, Int64.toInt_ofInt_of_le low ?_⟩
  omega

theorem isDigitByte_iff {byte : UInt8} :
    isDigitByte byte = true ↔ 48 ≤ byte.toNat ∧ byte.toNat ≤ 57 := by
  simp [isDigitByte, UInt8.le_iff_toNat_le]

theorem takeWhile_encoded (chars : List Char) :
    (chars.flatMap String.utf8EncodeChar).takeWhile isDigitByte =
      (digitsAt chars).map digitByte := by
  induction chars with
  | nil => rfl
  | cons c chars ih =>
    rcases Utf8.encodeChar_cases c with ⟨ascii, bytes⟩ | ⟨first, others, bytes, large, lead⟩
    · have same : isDigitByte (UInt8.ofNat c.toNat) = isDecimalDigit c := by
        rw [Bool.eq_iff_iff, isDigitByte_iff, isDecimalDigit_iff, UInt8.toNat_ofNat']
        omega
      rw [List.flatMap_cons, bytes, List.singleton_append, List.takeWhile_cons, same, ih,
        digitsAt, digitsAt, List.takeWhile_cons]
      split <;> rfl
    · have none : isDigitByte first = false := by
        rw [Bool.eq_false_iff, Ne, isDigitByte_iff]
        omega
      have other : isDecimalDigit c = false := by
        rw [Bool.eq_false_iff, Ne, isDecimalDigit_iff]
        omega
      simp [bytes, none, other, digitsAt]

theorem toNat_digitByte {digit : Char} (decimal : isDecimalDigit digit = true) :
    (digitByte digit - 0x30).toNat = digit.toNat - 48 := by
  have range := isDecimalDigit_iff.mp decimal
  have code : (digitByte digit).toNat = digit.toNat := by
    rw [digitByte, UInt8.toNat_ofNat']
    omega
  rw [UInt8.toNat_sub_of_le _ _ (by simp [UInt8.le_iff_toNat_le, code, range]), code]
  rfl

theorem toInt_min (a b : Int64) : (min a b).toInt = min a.toInt b.toInt := by
  have choice : min a b = if a ≤ b then a else b := rfl
  rw [choice, Int.min_def]
  simp only [Int64.le_iff_toInt_le]
  split <;> rfl

theorem accumulateWord_eq {word : Int64} {digit : Char} (low : 0 ≤ word.toInt)
    (high : word.toInt ≤ cap) (decimal : isDecimalDigit digit = true) :
    append word.toInt digit ≤ 10 * 2 ^ 31 + 9 ∧ ∃ next,
      accumulateWord? word (digitByte digit) = some next ∧
      next.toInt = accumulate word.toInt digit := by
  have range := isDecimalDigit_iff.mp decimal
  have byte := toNat_digitByte decimal
  have grown : append word.toInt digit = word.toInt * 10 + (digit.toNat - 48 : Nat) := rfl
  simp only [cap] at high
  obtain ⟨shifted, multiplied, product⟩ := word_eq (word.toInt * 10) (by omega) (by omega)
  obtain ⟨sum, added, total⟩ :=
    word_eq (shifted.toInt + (digit.toNat - 48 : Nat)) (by omega) (by omega)
  refine ⟨by omega, min sum 2147483648, ?_, ?_⟩
  · simp only [accumulateWord?, multiplied, byte, added, bind, Option.bind, pure]
  · rw [accumulate_eq, grown, ← product, ← total]
    exact toInt_min sum 2147483648

theorem foldlM_accumulateWord (word : Int64) {digits : List Char} (low : 0 ≤ word.toInt)
    (high : word.toInt ≤ cap) (decimal : ∀ c ∈ digits, isDecimalDigit c = true) :
    ∃ last, (digits.map digitByte).foldlM accumulateWord? word = some last ∧
      last.toInt = digits.foldl accumulate word.toInt := by
  induction digits generalizing word with
  | nil => exact ⟨word, rfl, rfl⟩
  | cons digit digits ih =>
    obtain ⟨-, next, step, value⟩ :=
      accumulateWord_eq low high (decimal digit List.mem_cons_self)
    have bounds := accumulated_bounds low high [digit]
    rw [List.foldl_cons, List.foldl_nil, ← value] at bounds
    obtain ⟨last, rest, result⟩ :=
      ih next bounds.1 bounds.2 fun c hc => decimal c (List.mem_cons_of_mem _ hc)
    refine ⟨last, ?_, ?_⟩
    · rw [List.map_cons, List.foldlM_cons, step]
      exact rest
    · rw [List.foldl_cons, ← value, result]

theorem magnitudeWord_eq (chars : List Char) :
    ∃ word, ((chars.flatMap String.utf8EncodeChar).takeWhile isDigitByte).foldlM
        accumulateWord? 0 = some word ∧ word.toInt = magnitude chars := by
  rw [takeWhile_encoded]
  exact foldlM_accumulateWord 0 (by decide) (by decide) fun _ => mem_digitsAt

theorem signedWord_eq (negative : Bool) (chars : List Char) :
    signedWord? negative (chars.flatMap String.utf8EncodeChar) =
      some (.ofInt (clamp (if negative then -magnitude chars else magnitude chars))) := by
  obtain ⟨word, read, value⟩ := magnitudeWord_eq chars
  obtain ⟨low, high⟩ := accumulated_bounds (Int.le_refl 0) (by decide) (digitsAt chars)
  change 0 ≤ magnitude chars at low
  change magnitude chars ≤ cap at high
  rw [signedWord?, read]
  cases negative with
  | false => simp [value]
  | true =>
    simp only [cap] at high
    obtain ⟨negated, minus, result⟩ := word_eq (-magnitude chars) (by omega) (by omega)
    simp [value, minus, result]

theorem signed_front {sign : Char} {byte : UInt8} (ascii : String.utf8EncodeChar sign = [byte])
    (negative : Bool) (chars : List Char) :
    (Utf8.sliceFrom? ((sign :: chars).flatMap String.utf8EncodeChar) 1).bind
        (signedWord? negative) =
      some (.ofInt (clamp (if negative then -magnitude chars else magnitude chars))) := by
  rw [List.flatMap_cons, ascii, List.singleton_append, Utf8.sliceFrom?,
    if_pos (Utf8.boundary_after byte chars)]
  exact signedWord_eq negative chars

theorem leadingWord_eq (text : String) : leadingWord? text = some (leadingInteger text) := by
  have minus := Utf8.head_encoded (trimStart text.toList) 0x2D (by decide)
  have plus := Utf8.head_encoded (trimStart text.toList) 0x2B (by decide)
  unfold leadingWord? leadingInteger
  split
  · rename_i rest front
    rw [front] at minus ⊢
    dsimp only
    rw [minus.mpr rfl]
    exact signed_front rfl true rest
  · rename_i rest front
    rw [front] at plus ⊢
    dsimp only
    rw [plus.mpr rfl]
    exact signed_front rfl false rest
  · rename_i notMinus notPlus
    have noMinus := mt minus.mp (head_ne notMinus)
    have noPlus := mt plus.mp (head_ne notPlus)
    dsimp only
    split
    · rename_i h
      exact absurd h noMinus
    · rename_i h
      exact absurd h noPlus
    · exact signedWord_eq false _

/-- The number at the front of any text is read as the nearest one of 32 bits. Over its bytes and
in words of 64 bits the reading always has that answer: at every digit the value has not passed
the cap, so that it stays small with the digit, and the cap changes neither the number nor its
negative. A sleep is the number, or zero for one below zero. -/
theorem leading_integer_saturates :
    (∀ text : String,
      (leadingInteger text).toInt = max (-2 ^ 31) (min (written text) (2 ^ 31 - 1)) ∧
      leadingWord? text = some (leadingInteger text) ∧
      ((sleepSeconds text).toNat : Int) = max 0 (leadingInteger text).toInt) ∧
    ∀ cs : List Char,
      (∀ before digit after, digitsAt cs = before ++ digit :: after →
        ∃ value : Int64, (before.map digitByte).foldlM accumulateWord? 0 = some value ∧
          0 ≤ value.toInt ∧
          value.toInt * 10 + ((digitByte digit - 0x30).toNat : Int) ≤ 10 * 2 ^ 31 + 9) ∧
      clamp (magnitude cs) = clamp (valueOf 10 ((digitsAt cs).filterMap (digit? 10))) ∧
      clamp (-magnitude cs) = clamp (-valueOf 10 ((digitsAt cs).filterMap (digit? 10))) := by
  refine ⟨fun text => ⟨leadingInteger_eq text, leadingWord_eq text, toInt_sleepSeconds text⟩,
    fun cs => ⟨?_, clamp_magnitude cs⟩⟩
  intro before digit after digits
  have decimal : ∀ c ∈ before ++ digit :: after, isDecimalDigit c = true :=
    digits ▸ fun _ => mem_digitsAt
  obtain ⟨value, read, result⟩ := foldlM_accumulateWord 0 (by decide) (by decide)
    fun c hc => decimal c (List.mem_append_left _ hc)
  obtain ⟨low, high⟩ := accumulated_bounds (Int.le_refl (0 : Int64).toInt) (by decide) before
  rw [← result] at low high
  have last := decimal digit (List.mem_append_right _ List.mem_cons_self)
  have small := (accumulateWord_eq low high last).1
  change value.toInt * 10 + (digit.toNat - 48 : Nat) ≤ _ at small
  rw [← toNat_digitByte last] at small
  exact ⟨value, read, low, small⟩

theorem leading_integer_saturates_negative :
    written "\u3000-21474836499é" = -21474836499 ∧
    (leadingInteger "\u3000-21474836499é").toInt = -2147483648 ∧
    digitsAt "21474836499é".toList = "2147483649".toList ++ '9' :: [] ∧
    ∃ value : Int64, ("2147483649".toList.map digitByte).foldlM accumulateWord? 0 = some value ∧
      0 ≤ value.toInt ∧
      value.toInt * 10 + ((digitByte '9' - 0x30).toNat : Int) ≤ 10 * 2 ^ 31 + 9 := by
  have digits : digitsAt "21474836499é".toList = "2147483649".toList ++ '9' :: [] := by decide
  have value : written "\u3000-21474836499é" = -21474836499 := by decide
  have read := (leading_integer_saturates.1 "\u3000-21474836499é").1
  rw [value] at read
  exact ⟨value, read, digits, (leading_integer_saturates.2 _).1 _ _ _ digits⟩

end Serial
end FaultDrill
