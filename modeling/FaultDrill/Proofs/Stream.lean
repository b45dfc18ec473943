import FaultDrill.Frame.Inbox
import FaultDrill.Frame.Stream
import FaultDrill.Proofs.Wire
set_option autoImplicit false

/-!
# Reading frames from any bytes

What a source of bytes is read as depends on the bytes and on how the source ends, never on the
chunks that the bytes come in. `parse` says it without chunks, and an inbox, which is cut into
frames as its bytes arrive, holds what reading them would give.
-/
namespace FaultDrill
open Wire

namespace Source

def bytes (source : Source) : List UInt8 := source.chunks.flatten

theorem readChunks_eq (fault : Option FaultKind) (count : Nat) (got : List UInt8)
    (chunks : List (List UInt8)) :
    (readChunks fault count got chunks).1 =
        (if count ≤ chunks.flatten.length then .ok (got ++ chunks.flatten.take count)
        else .error (fault.getD .unexpectedEof)) ∧
      (readChunks fault count got chunks).2.flatten = chunks.flatten.drop count := by
  induction chunks generalizing count got with
  | nil =>
    rw [readChunks]
    by_cases h : count = 0 <;> simp [h]
  | cons chunk rest ih =>
    rw [readChunks, List.flatten_cons]
    by_cases h : count ≤ chunk.length
    · have hle : count ≤ (chunk ++ rest.flatten).length := by
        rw [List.length_append]
        omega
      rw [if_pos h, if_pos hle, List.take_append_of_le_length h, List.drop_append_of_le_length h]
      exact ⟨rfl, List.flatten_cons⟩
    · obtain ⟨hresult, hrest⟩ := ih (count - chunk.length) (got ++ chunk)
      have htake : (chunk ++ rest.flatten).take count =
          chunk ++ rest.flatten.take (count - chunk.length) := by
        rw [List.take_append, List.take_of_length_le (by omega)]
      have hdrop : (chunk ++ rest.flatten).drop count =
          rest.flatten.drop (count - chunk.length) := by
        rw [List.drop_append, List.drop_eq_nil_of_le (by omega), List.nil_append]
      have hle : count ≤ (chunk ++ rest.flatten).length ↔
          count - chunk.length ≤ rest.flatten.length := by
        rw [List.length_append]
        omega
      simp only [if_neg h, hresult, hrest, htake, hdrop, hle, List.append_assoc, and_self]

variable (source : Source) (count : Nat)

theorem readExact_enough (h : count ≤ source.bytes.length) :
    ∃ after : Source, source.readExact count = (.ok (source.bytes.take count), after) ∧
      after.bytes = source.bytes.drop count ∧ after.fault = source.fault := by
  obtain ⟨hresult, hrest⟩ := readChunks_eq source.fault count [] source.chunks
  refine ⟨(source.readExact count).2, ?_, hrest, rfl⟩
  exact Prod.ext (hresult.trans (if_pos h)) rfl

theorem readExact_short (h : source.bytes.length < count) :
    ∃ after : Source, source.readExact count = (.error (source.fault.getD .unexpectedEof), after) ∧
      after.bytes = [] ∧ after.fault = source.fault := by
  obtain ⟨hresult, hrest⟩ := readChunks_eq source.fault count [] source.chunks
  refine ⟨(source.readExact count).2, ?_, ?_, rfl⟩
  · exact Prod.ext (hresult.trans (if_neg (Nat.not_le.mpr h))) rfl
  · exact hrest.trans (List.drop_eq_nil_of_le (Nat.le_of_lt h))

end Source

namespace Frame

/-- What a read comes to when the bytes run out: nothing more at the end of the source and where
the other side has gone, and else the failure that the source ends with. -/
def ending : Option FaultKind → Except ComponentError (Option Frame)
  | none | some .unexpectedEof | some .connectionReset | some .connectionAborted
  | some .brokenPipe => .ok none
  | some kind => .error (.transfer (.ofKind kind))

theorem lost_eq_ending (fault : Option FaultKind) :
    lost (fault.getD .unexpectedEof) = ending fault := by
  cases fault with
  | none => rfl
  | some kind => cases kind <;> rfl

theorem maxLength_eq : maxLength = 1048576 := rfl

def decoded (body : List UInt8) : Except ComponentError (Option Frame) :=
  match (decode body : Except DecodeFault Frame) with
  | .ok frame => .ok (some frame)
  | .error fault => .error (.deserialization s!"Failed to deserialize frame: {fault.message}")

theorem decoded_eq (body : List UInt8) : decoded body = (ofBody body).map some := by
  rw [decoded, ofBody]
  cases (decode body : Except DecodeFault Frame) <;> rfl

/-- One frame off the front of the bytes, and the bytes that are left. Bytes that are too few for
a length, or for the body that is announced, are used up. -/
def parse (fault : Option FaultKind) (bytes : List UInt8) :
    Except ComponentError (Option Frame) × List UInt8 :=
  if bytes.length < 4 then (ending fault, [])
  else
    let length := ofLittleEndian (bytes.take 4)
    let rest := bytes.drop 4
    if length > 1048576 then (.error (.protocol s!"Frame too large: {length} bytes"), rest)
    else if rest.length < length then (ending fault, [])
    else (decoded (rest.take length), rest.drop length)

def parseMany (fault : Option FaultKind) (bytes : List UInt8) : (count : Nat) →
    List (Except ComponentError (Option Frame)) × List UInt8
  | 0 => ([], bytes)
  | count + 1 =>
    let (result, rest) := parse fault bytes
    let (results, rest) := parseMany fault rest count
    (result :: results, rest)

theorem parseMany_succ {fault : Option FaultKind} {bytes rest : List UInt8}
    {result : Except ComponentError (Option Frame)} (h : parse fault bytes = (result, rest))
    (count : Nat) : parseMany fault bytes (count + 1) =
      (result :: (parseMany fault rest count).1, (parseMany fault rest count).2) := by
  rw [parseMany, h]

theorem read_eq_parse (source : Source) :
    ∃ after : Source, read source = ((parse source.fault source.bytes).1, after) ∧
      after.bytes = (parse source.fault source.bytes).2 ∧ after.fault = source.fault := by
  rw [read, parse]
  by_cases short : source.bytes.length < 4
  · obtain ⟨after, hread, hbytes, hfault⟩ := source.readExact_short 4 short
    rw [hread, if_pos short]
    exact ⟨after, Prod.ext (lost_eq_ending source.fault) rfl, hbytes, hfault⟩
  · obtain ⟨middle, hread, hbytes, hfault⟩ := source.readExact_enough 4 (by omega)
    rw [hread, if_neg short]
    simp only
    by_cases large : ofLittleEndian (source.bytes.take 4) > 1048576
    · rw [maxLength_eq, if_pos large, if_pos large]
      exact ⟨middle, rfl, hbytes, hfault⟩
    · rw [maxLength_eq, if_neg large, if_neg large, ← hbytes, ← hfault]
      by_cases cut : middle.bytes.length < ofLittleEndian (source.bytes.take 4)
      · obtain ⟨after, hbody, hrest, hfault'⟩ := middle.readExact_short _ cut
        rw [hbody, if_pos cut]
        exact ⟨after, Prod.ext (lost_eq_ending middle.fault) rfl, hrest, hfault'⟩
      · obtain ⟨after, hbody, hrest, hfault'⟩ := middle.readExact_enough _ (Nat.not_lt.mp cut)
        rw [hbody, if_neg cut, decoded_eq]
        exact ⟨after, rfl, hrest, hfault'⟩

theorem readMany_eq_parseMany (source : Source) (count : Nat) :
    (readMany source count).1 = (parseMany source.fault source.bytes count).1 ∧
      (readMany source count).2.bytes = (parseMany source.fault source.bytes count).2 := by
  induction count generalizing source with
  | zero => exact ⟨rfl, rfl⟩
  | succ count ih =>
    obtain ⟨after, hread, hbytes, hfault⟩ := read_eq_parse source
    obtain ⟨hresults, hrest⟩ := ih after
    rw [hfault, hbytes] at hresults hrest
    rw [readMany, hread, parseMany]
    exact ⟨congrArg (List.cons _) hresults, hrest⟩

theorem parse_body (fault : Option FaultKind) (body rest : List UInt8)
    (h : body.length ≤ 1048576) :
    parse fault (littleEndian 4 body.length ++ body ++ rest) = (decoded body, rest) := by
  have hlength : (littleEndian 4 body.length ++ body ++ rest).length =
      4 + body.length + rest.length := by
    rw [List.length_append, List.length_append, length_littleEndian]
  have hheader : (littleEndian 4 body.length ++ body ++ rest).take 4 =
      littleEndian 4 body.length := by
    rw [List.append_assoc]
    exact List.take_left' (length_littleEndian 4 _)
  have hbody : (littleEndian 4 body.length ++ body ++ rest).drop 4 = body ++ rest := by
    rw [List.append_assoc]
    exact List.drop_left' (length_littleEndian 4 _)
  rw [parse, if_neg (by omega)]
  simp only [hheader, hbody, ofLittleEndian_littleEndian 4 body.length (by omega)]
  rw [if_neg (by omega), if_neg (by rw [List.length_append]; omega), List.take_left,
    List.drop_left]

theorem parse_nil (fault : Option FaultKind) : parse fault [] = (ending fault, []) := rfl

theorem parseMany_nil (fault : Option FaultKind) (count : Nat) :
    parseMany fault [] count = (.replicate count (ending fault), []) := by
  induction count with
  | zero => rfl
  | succ count ih => simp only [parseMany, parse_nil, ih, List.replicate_succ]

theorem parse_cases (fault : Option FaultKind) (bytes : List UInt8) :
    parse fault bytes = (ending fault, []) ∨
      (parse fault bytes).2.length + 4 ≤ bytes.length ∧ (parse fault bytes).1 ≠ .ok none := by
  rw [parse]
  by_cases short : bytes.length < 4
  · rw [if_pos short]
    exact .inl rfl
  · have hrest : (bytes.drop 4).length = bytes.length - 4 := List.length_drop
    rw [if_neg short]
    simp only
    split
    · exact .inr ⟨by simp only; omega, nofun⟩
    · split
      · exact .inl rfl
      · refine .inr ⟨?_, ?_⟩
        · rw [List.length_drop]
          omega
        · rw [decoded_eq]
          cases ofBody ((bytes.drop 4).take (ofLittleEndian (bytes.take 4))) <;> nofun

theorem parseMany_closed (fault : Option FaultKind) (bytes : List UInt8) (count : Nat) {i j : Nat}
    (hij : i ≤ j) (hj : j < count)
    (closed : (parseMany fault bytes count).1[i]? = some (.ok none)) :
    (parseMany fault bytes count).1[j]? = some (.ok none) := by
  induction count generalizing bytes i j with
  | zero => omega
  | succ count ih =>
    rw [parseMany] at closed ⊢
    rcases parse_cases fault bytes with hend | ⟨-, hsome⟩
    · -- From here on there are no bytes, and all reads come to the same.
      rw [hend] at closed ⊢
      simp only [parseMany_nil, ← List.replicate_succ] at closed ⊢
      rw [List.getElem?_replicate, if_pos (by omega)] at closed ⊢
      exact closed
    · cases i with
      | zero => exact absurd (Option.some.inj closed) hsome
      | succ i =>
        cases j with
        | zero => omega
        | succ j =>
          rw [List.getElem?_cons_succ] at closed ⊢
          exact ih _ (by omega) (by omega) closed

theorem parseMany_ends (fault : Option FaultKind) (ends : ending fault = .ok none)
    (bytes : List UInt8) (count : Nat) (h : bytes.length / 4 < count) :
    ∃ i ≤ bytes.length / 4, (parseMany fault bytes count).1[i]? = some (.ok none) := by
  induction count generalizing bytes with
  | zero => omega
  | succ count ih =>
    rw [parseMany]
    rcases parse_cases fault bytes with hend | ⟨hless, -⟩
    · refine ⟨0, Nat.zero_le _, ?_⟩
      rw [hend, ends]
      rfl
    · obtain ⟨i, hi, hclosed⟩ := ih (parse fault bytes).2 (by omega)
      exact ⟨i + 1, by omega, by rwa [List.getElem?_cons_succ]⟩

def ofArrival : Arrival → Except ComponentError (Option Frame)
  | .frame frame => .ok (some frame)
  | .fault error => .error error

theorem ofArrival_ofBody (body : List UInt8) :
    ofArrival (.ofBody body) = decoded body := by
  rw [Arrival.ofBody, decoded_eq]
  cases ofBody body <;> rfl

theorem parse_eq_next (fault : Option FaultKind) (bytes : List UInt8) :
    parse fault bytes = match Arrival.next? bytes with
      | none => (ending fault, [])
      | some (arrival, rest) => (ofArrival arrival, rest) := by
  rw [parse, Arrival.next?]
  by_cases short : bytes.length < 4
  · rw [if_pos short, dif_pos short]
  · have hrest : (bytes.drop 4).length = bytes.length - 4 := List.length_drop
    have hcut : bytes.length < 4 + ofLittleEndian (bytes.take 4) ↔
        (bytes.drop 4).length < ofLittleEndian (bytes.take 4) := by omega
    rw [if_neg short, dif_neg short]
    simp only
    by_cases large : ofLittleEndian (bytes.take 4) > 1048576
    · rw [maxLength_eq, if_pos large, if_pos large]
      rfl
    · rw [maxLength_eq, if_neg large, if_neg large]
      by_cases cut : (bytes.drop 4).length < ofLittleEndian (bytes.take 4)
      · rw [if_pos cut, if_pos (hcut.mpr cut)]
      · rw [if_neg cut, if_neg fun h => cut (hcut.mp h), List.drop_drop]
        exact Prod.ext (ofArrival_ofBody _).symm rfl

/-- Reading gives the arrivals that the bytes are cut into, one after the other, and then the end
of the source. -/
theorem parseMany_cut (fault : Option FaultKind) (bytes : List UInt8) (count : Nat) :
    parseMany fault bytes ((Arrival.cut bytes).1.length + (count + 1)) =
      ((Arrival.cut bytes).1.map ofArrival ++ .replicate (count + 1) (ending fault), []) := by
  induction hn : bytes.length using Nat.strongRecOn generalizing bytes with
  | ind n ih =>
    have hparse := parse_eq_next fault bytes
    rw [Arrival.cut]
    split at hparse
    · rename_i hnone
      have hcount : ([] : List Arrival).length + (count + 1) = count + 1 := Nat.zero_add _
      rw [hnone, hcount, parseMany_succ hparse, parseMany_nil]
      rfl
    · rename_i arrival rest hsome
      have hcount : (arrival :: (Arrival.cut rest.1).1).length + (count + 1) =
          (Arrival.cut rest.1).1.length + (count + 1) + 1 := by
        rw [List.length_cons]
        omega
      rw [hsome, hcount, parseMany_succ hparse, ih rest.1.length (hn ▸ rest.2) rest.1 rfl]
      rfl

/-- Reading from a source and parsing its bytes come to the same, results and unread bytes alike,
after any number of reads. A body that is no frame costs itself and nothing after it. Once the
other side is found gone it stays so, and it is found gone after at most one read for each four
bytes, and one more. -/
theorem reading_ignores_chunks (chunks : List (List UInt8)) (fault : Option FaultKind)
    (count : Nat) :
    (readMany ⟨chunks, fault⟩ count).1 = (parseMany fault chunks.flatten count).1 ∧
    (readMany ⟨chunks, fault⟩ count).2.chunks.flatten =
      (parseMany fault chunks.flatten count).2 ∧
    (∀ body rest, body.length ≤ 1048576 →
      chunks.flatten = littleEndian 4 body.length ++ body ++ rest →
      (readMany ⟨chunks, fault⟩ (count + 1)).1 =
          decoded body :: (parseMany fault rest count).1 ∧
        (readMany ⟨chunks, fault⟩ (count + 1)).2.chunks.flatten = (parseMany fault rest count).2) ∧
    (∀ i j, i ≤ j → j < count → (readMany ⟨chunks, fault⟩ count).1[i]? = some (.ok none) →
      (readMany ⟨chunks, fault⟩ count).1[j]? = some (.ok none)) ∧
    (ending fault = .ok none → chunks.flatten.length / 4 < count →
      ∃ i ≤ chunks.flatten.length / 4,
        (readMany ⟨chunks, fault⟩ count).1[i]? = some (.ok none)) := by
  obtain ⟨hresults, hrest⟩ := readMany_eq_parseMany ⟨chunks, fault⟩ count
  refine ⟨hresults, hrest, fun body rest hbody hbytes => ?_, fun i j hij hj closed => ?_,
    fun ends h => ?_⟩
  · have hnext := readMany_eq_parseMany ⟨chunks, fault⟩ (count + 1)
    rw [Source.bytes, hbytes, parseMany_succ (parse_body fault body rest hbody)] at hnext
    exact hnext
  · rw [hresults] at closed ⊢
    exact parseMany_closed fault _ count hij hj closed
  · obtain ⟨i, hi, closed⟩ := parseMany_ends fault ends chunks.flatten count h
    exact ⟨i, hi, by rwa [hresults]⟩

/-- A body of one byte, which is no frame, and then a whole frame, in chunks that cut both. -/
def malformedFirst : List (List UInt8) := [[1, 0], [0, 0, 9, 4, 0], [], [0, 0, 2, 0], [0, 0]]

theorem reading_ignores_chunks_malformed :
    malformedFirst.flatten = littleEndian 4 1 ++ [9] ++ [4, 0, 0, 0, 2, 0, 0, 0] ∧
      (readMany ⟨malformedFirst, none⟩ 3).1 =
        [.error (.deserialization "Failed to deserialize frame: io error: unexpected end of file"),
          .ok (some .barrierEnter), .ok none] ∧
      (readMany ⟨malformedFirst, none⟩ 5).1[3]? = some (.ok none) ∧
      ∃ i ≤ 3, (readMany ⟨malformedFirst, none⟩ 4).1[i]? = some (.ok none) := by
  refine ⟨rfl, ?_, ?_, ?_⟩
  · exact ((reading_ignores_chunks malformedFirst none 2).2.2.1 [9] [4, 0, 0, 0, 2, 0, 0, 0]
      (by decide) rfl).1
  · exact (reading_ignores_chunks malformedFirst none 5).2.2.2.1 2 3 (by decide) (by decide) rfl
  · exact (reading_ignores_chunks malformedFirst none 4).2.2.2.2 rfl (by decide)

end Frame
end FaultDrill
