import FaultDrill.Net.Address
import FaultDrill.Proofs.Numeral
set_option autoImplicit false

namespace FaultDrill.Net
open Text

theorem toString_self (text : String) : toString text = text := rfl

namespace Scanner

variable {α β : Type}

/-- The scanner takes a value off the front of a text. -/
def Reads (scanner : Scanner α) (text : List Char) (value : α) (rest : List Char) : Prop :=
  scanner.run text = some (value, rest)

theorem Reads.bind {scanner : Scanner α} {next : α → Scanner β} {text middle rest : List Char}
    {value : α} {result : β} (first : scanner.Reads text value middle)
    (second : (next value).Reads middle result rest) :
    (scanner >>= next).Reads text result rest := by
  unfold Reads at *
  rw [StateT.run_bind, first]
  exact second

theorem reads_pure (value : α) (text : List Char) :
    (pure value : Scanner α).Reads text value text := rfl

@[simp] theorem run_failure (text : List Char) : (failure : Scanner α).run text = none := rfl

theorem reads_char (c : Char) (rest : List Char) : (char c).Reads (c :: rest) () rest := by
  simp [Reads, char]

theorem char_refuses {c : Char} {text : List Char} (other : text.head? ≠ some c) :
    (char c).run text = none := by
  cases text with
  | nil => rfl
  | cons d rest =>
    have hd : d ≠ c := by simpa using other
    simp [char, hd]

def Stops (radix : Nat) (text : List Char) : Prop := ∀ c ∈ text.head?, digit? radix c = none

theorem takeWhile_stops {radix : Nat} {text : List Char} (h : Stops radix text) :
    text.takeWhile (fun c => (digit? radix c).isSome) = [] := by
  cases text with
  | nil => rfl
  | cons c rest => simp [h c rfl]

theorem reads_number {radix bound n : Nat} {most : Option Nat} {zeros : Bool} {rest : List Char}
    (least : 1 < radix) (limit : radix ≤ 16) (small : n < bound)
    (fits : ∀ count ∈ most, (Nat.toDigits radix n).length ≤ count) (stops : Stops radix rest) :
    (number radix bound most zeros).Reads (Nat.toDigits radix n ++ rest) n rest := by
  have taken : (Nat.toDigits radix n ++ rest).takeWhile (fun c => (digit? radix c).isSome) =
      Nat.toDigits radix n := by
    rw [List.takeWhile_append_of_pos fun c hc => isSome_toDigits least limit hc,
      takeWhile_stops stops, List.append_nil]
  have short : most.any ((digitsOf radix n).length > ·) = false := by
    cases most with
    | none => rfl
    | some count =>
      simpa [length_digitsOf least limit] using fits count rfl
  have plain : ¬((zeros = false ∧ (digitsOf radix n).head? = some 0) ∧
      1 < (digitsOf radix n).length) := by
    rintro ⟨⟨-, zero⟩, long⟩
    rw [digitsOf_head least limit zero, digitsOf_small limit (Nat.zero_lt_of_lt least)] at long
    simp at long
  have value := valueOf_digitsOf least limit n
  have nonempty := digitsOf_ne_nil least limit n
  have dropped : (Nat.toDigits radix n ++ rest).drop (digitsOf radix n).length = rest := by
    rw [length_digitsOf least limit, List.drop_left]
  have digits : (Nat.toDigits radix n).filterMap (digit? radix) = digitsOf radix n := rfl
  unfold Reads number
  simp only [StateT.run_bind, StateT.run_get, Option.pure_def, Option.bind_eq_bind,
    Option.bind_some, taken, digits]
  generalize digitsOf radix n = written at short plain value nonempty dropped
  have below : ¬bound ≤ n := by omega
  simp [short, plain, value, nonempty, dropped, below]

theorem number_refuses {radix bound : Nat} {most : Option Nat} {zeros : Bool} {text : List Char}
    (stops : Stops radix text) : (number radix bound most zeros).run text = none := by
  unfold number
  simp only [StateT.run_bind, StateT.run_get, Option.pure_def, Option.bind_eq_bind,
    Option.bind_some, takeWhile_stops stops, List.filterMap_nil, List.isEmpty_nil, Bool.true_or,
    if_true]
  rfl

theorem drop_digits (radix : Nat) (text : List Char) :
    text.drop ((text.takeWhile fun c => (digit? radix c).isSome).filterMap (digit? radix)).length =
      text.dropWhile fun c => (digit? radix c).isSome := by
  induction text with
  | nil => rfl
  | cons c rest ih => cases h : digit? radix c <;> simp [h, ih]

theorem number_leaves {radix bound value : Nat} {most : Option Nat} {zeros : Bool}
    {text rest : List Char} (h : (number radix bound most zeros).Reads text value rest) :
    rest = text.dropWhile fun c => (digit? radix c).isSome := by
  unfold Reads number at h
  simp only [StateT.run_bind, StateT.run_get, Option.pure_def, Option.bind_eq_bind,
    Option.bind_some] at h
  split at h
  · cases h
  · cases h
    exact drop_digits radix text

theorem reads_octet (value : UInt8) {rest : List Char} (stops : Stops 10 rest) :
    octet.Reads ((toString value).toList ++ rest) value rest := by
  have text : (toString value).toList = Nat.toDigits 10 value.toNat := Nat.toList_repr
  have small : value.toNat < 256 := value.toNat_lt
  have short : (Nat.toDigits 10 value.toNat).length ≤ 3 :=
    (Nat.length_toDigits_le_iff (by decide) (by decide)).mpr (by omega)
  have reads : (number 10 256 (some 3) false).Reads (Nat.toDigits 10 value.toNat ++ rest)
      value.toNat rest := reads_number (by decide) (by decide) small (by simpa using short) stops
  rw [text]
  refine reads.bind ?_
  rw [UInt8.ofNat_toNat]
  exact reads_pure value rest

theorem stops_dot (rest : List Char) : Stops 10 ('.' :: rest) := by
  simp [Stops, digit?]

theorem reads_ipv4 (ip : Ipv4) {rest : List Char} (stops : Stops 10 rest) :
    ipv4.Reads (ip.render.toList ++ rest) ip rest := by
  have text : ip.render.toList ++ rest = (toString ip.a).toList ++ '.' :: ((toString ip.b).toList ++
      '.' :: ((toString ip.c).toList ++ '.' :: ((toString ip.d).toList ++ rest))) := by
    simp [Ipv4.render, toString_self]
  rw [text]
  refine (reads_octet ip.a (stops_dot _)).bind <| (reads_char '.' _).bind ?_
  refine (reads_octet ip.b (stops_dot _)).bind <| (reads_char '.' _).bind ?_
  refine (reads_octet ip.c (stops_dot _)).bind <| (reads_char '.' _).bind ?_
  exact (reads_octet ip.d stops).bind <| reads_pure ip rest

theorem ipv4_refuses {text : List Char}
    (other : (text.dropWhile fun c => (digit? 10 c).isSome).head? ≠ some '.') :
    ipv4.run text = none := by
  cases first : (number 10 256 (some 3) false).run text with
  | none => simp [ipv4, octet, first]
  | some result =>
    have left : result.2 = _ := number_leaves first
    have stuck := char_refuses (left ▸ other)
    simp [ipv4, octet, first, stuck]

theorem digit_ten_none {c : Char} (h : digit? 16 c = none) : digit? 10 c = none := by
  have narrow : digit? 10 c = (digit? 16 c).filter (· < 10) := by
    simp only [digit?, Option.filter_filter]
    congr 1
    funext value
    simp
    omega
  rw [narrow, h]
  rfl

/-- Nothing at the front of a text goes on with a group, or makes a dotted address of it. -/
def Clear (text : List Char) : Prop := ∀ c ∈ text.head?, digit? 16 c = none ∧ c ≠ '.'

theorem Clear.stops {text : List Char} (h : Clear text) : Stops 16 text := fun c hc => (h c hc).1

theorem Clear.stops_ten {text : List Char} (h : Clear text) : Stops 10 text :=
  fun c hc => digit_ten_none (h c hc).1

theorem clear_cons {c : Char} (rest : List Char) (digit : digit? 16 c = none) (dot : c ≠ '.') :
    Clear (c :: rest) := by
  simp [Clear, digit, dot]

theorem reads_group (value : UInt16) {rest : List Char} (stops : Stops 16 rest) :
    group.Reads (Nat.toDigits 16 value.toNat ++ rest) value rest := by
  have small : value.toNat < UInt16.size := value.toNat_lt
  have short : (Nat.toDigits 16 value.toNat).length ≤ 4 :=
    (Nat.length_toDigits_le_iff (by decide) (by decide)).mpr small
  have reads : (number 16 UInt16.size (some 4) true).Reads (Nat.toDigits 16 value.toNat ++ rest)
      value.toNat rest := reads_number (by decide) (by decide) small (by simpa using short) stops
  refine reads.bind ?_
  rw [UInt16.ofNat_toNat]
  exact reads_pure value rest

theorem group_refuses {text : List Char} (stops : Stops 16 text) : group.run text = none := by
  simp [group, number_refuses stops]

theorem ipv4_clear {text : List Char} (clear : Clear text) : ipv4.run text = none := by
  simp [ipv4, octet, number_refuses clear.stops_ten]

theorem ipv4_group (value : Nat) {rest : List Char} (clear : Clear rest) :
    ipv4.run (Nat.toDigits 16 value ++ rest) = none := by
  have digits : ∀ c ∈ Nat.toDigits 16 value, c ≠ '.' := by
    rintro c hc rfl
    have dot := isSome_toDigits (by decide) (by decide) hc
    simp [digit?] at dot
  apply ipv4_refuses
  generalize Nat.toDigits 16 value = written at digits
  induction written with
  | nil =>
    cases rest with
    | nil => simp
    | cons c rest =>
      obtain ⟨digit, dot⟩ := clear c rfl
      simpa [digit_ten_none digit] using dot
  | cons c others ih =>
    obtain ⟨first, remaining⟩ := List.forall_mem_cons.mp digits
    by_cases digit : (digit? 10 c).isSome = true
    · simpa [List.dropWhile_cons, digit] using ih remaining
    · simpa [List.dropWhile_cons, digit] using first

section Separated

variable {item : Scanner α} {index : Nat}

def mark (index : Nat) : List Char := if index > 0 then [':'] else []

theorem separated_mark (text : List Char) :
    (separated ':' index item).run (mark index ++ text) = item.run text := by
  by_cases later : index > 0
  · have reads := reads_char ':' text
    unfold Reads at reads
    simp [separated, mark, later, reads]
  · simp [separated, mark, later]

theorem separated_refuses {text : List Char} (bare : item.run text = none)
    (after : ∀ rest, text = ':' :: rest → item.run rest = none) :
    (separated ':' index item).run text = none := by
  by_cases later : index > 0
  · by_cases colon : text.head? = some ':'
    · obtain ⟨rest, rfl⟩ := List.head?_eq_some_iff.mp colon
      have reads := reads_char ':' rest
      unfold Reads at reads
      simp [separated, later, reads, after rest rfl]
    · simp [separated, later, char_refuses colon]
  · simp [separated, later, bare]

end Separated

/-- Groups as they are written, each with the separator in front of it that its place asks for. -/
def spelled : Nat → List UInt16 → List Char
  | _, [] => []
  | index, first :: groups =>
    mark index ++ (Nat.toDigits 16 first.toNat ++ spelled (index + 1) groups)

theorem spelled_clear (index : Nat) (groups : List UInt16) {rest : List Char} (clear : Clear rest) :
    Clear (spelled (index + 1) groups ++ rest) := by
  cases groups with
  | nil => exact clear
  | cons first groups => exact clear_cons _ (by decide) (by decide)

/-- The groups end here: what follows is clear, and also what follows a colon there. -/
def Ends (text : List Char) : Prop := Clear text ∧ ∀ rest, text = ':' :: rest → Clear rest

theorem reads_groups (index limit : Nat) (groups : List UInt16) {rest : List Char}
    (fits : groups.length ≤ limit) (ends : Ends rest) :
    (groupsFrom index limit).Reads (spelled index groups ++ rest) (groups, false) rest := by
  induction groups generalizing index limit with
  | nil =>
    cases limit with
    | zero => rfl
    | succ limit =>
      have none_dotted : (separated ':' index ipv4).run rest = none :=
        separated_refuses (ipv4_clear ends.1) fun text h => ipv4_clear (ends.2 text h)
      have none_group : (separated ':' index group).run rest = none :=
        separated_refuses (group_refuses ends.1.stops) fun text h =>
          group_refuses (ends.2 text h).stops
      simp only [Reads, StateT.run, groupsFrom, spelled, List.nil_append] at *
      simp [none_dotted, none_group]
  | cons first groups ih =>
    obtain ⟨limit, rfl⟩ : ∃ n, limit = n + 1 := ⟨limit - 1, by simp at fits; omega⟩
    have others := ih (index + 1) limit (by simpa using fits)
    have clear := spelled_clear index groups ends.1
    have text : spelled index (first :: groups) ++ rest = mark index ++
        (Nat.toDigits 16 first.toNat ++ (spelled (index + 1) groups ++ rest)) := by
      simp [spelled]
    have not_dotted : (separated ':' index ipv4).run (spelled index (first :: groups) ++ rest) =
        none := by
      rw [text, separated_mark, ipv4_group first.toNat clear]
    have next : (separated ':' index group).run (spelled index (first :: groups) ++ rest) =
        some (first, spelled (index + 1) groups ++ rest) := by
      rw [text, separated_mark]
      exact reads_group first clear.stops
    unfold Reads at others
    simp only [Reads, StateT.run, groupsFrom] at not_dotted next others ⊢
    simp [not_dotted, next, others]

end Scanner

namespace Ipv6
open Scanner

theorem hexadecimal_toList (n : Nat) : (hexadecimal n).toList = Nat.toDigits 16 n := by
  simp [hexadecimal]

theorem renderGroups_cons (index : Nat) (first : UInt16) (groups : List UInt16) :
    (renderGroups (first :: groups)).toList =
      Nat.toDigits 16 first.toNat ++ spelled (index + 1) groups := by
  induction groups generalizing index first with
  | nil => simp [renderGroups, spelled, hexadecimal_toList]
  | cons second groups ih =>
    have others := ih (index + 1) second
    simp only [renderGroups, List.map_cons, String.toList_intercalate] at others ⊢
    simp [spelled, mark, hexadecimal_toList, ← others]

theorem renderGroups_spelled (groups : List UInt16) :
    (renderGroups groups).toList = spelled 0 groups := by
  cases groups with
  | nil => rfl
  | cons first groups => exact renderGroups_cons 0 first groups

theorem take_zeroRun (groups : List UInt16) :
    groups.take (zeroRun groups) = List.replicate (zeroRun groups) 0 := by
  induction groups with
  | nil => rfl
  | cons first groups ih =>
    by_cases zero : first = 0
    · simpa [zeroRun, zero, List.replicate_succ] using ih
    · simp [zeroRun, zero]

theorem longestRun_zeros (groups : List UInt16) :
    (groups.drop (longestRun groups).1).take (longestRun groups).2 =
      List.replicate (longestRun groups).2 0 := by
  have step : ∀ (starts : List Nat) (best : Nat × Nat),
      (groups.drop best.1).take best.2 = List.replicate best.2 0 →
      ∀ run, starts.foldl (fun best start =>
          let length := zeroRun (groups.drop start)
          if length > best.2 then (start, length) else best) best = run →
        (groups.drop run.1).take run.2 = List.replicate run.2 0 := by
    intro starts
    induction starts with
    | nil =>
      rintro best zeros run rfl
      exact zeros
    | cons start starts ih =>
      intro best zeros run h
      rw [List.foldl_cons] at h
      refine ih _ ?_ run h
      dsimp only
      split
      · exact take_zeroRun (groups.drop start)
      · exact zeros
  exact step _ _ (by simp) _ rfl

theorem reads_whole (ip : Ipv6) {rest : List Char} (ends : Ends rest) :
    ipv6.Reads ((renderGroups ip.groups).toList ++ rest) ip rest := by
  have all := reads_groups 0 8 ip.groups (by simp [ip.length_groups]) ends
  rw [renderGroups_spelled]
  refine all.bind ?_
  simp only [ip.length_groups, dif_pos]
  exact reads_pure ip rest

theorem reads_shortened (ip : Ipv6) {head tail : List UInt16} {zeros : Nat} {dotted : Bool}
    {text rest : List Char} (several : 0 < zeros)
    (groups : ip.groups = head ++ List.replicate zeros 0 ++ tail)
    (reads : (groupsFrom 0 (7 - head.length)).Reads text (tail, dotted) rest) :
    ipv6.Reads ((renderGroups head).toList ++ ':' :: ':' :: text) ip rest := by
  have total := congrArg List.length groups
  simp only [ip.length_groups, List.length_append, List.length_replicate] at total
  have ends : Ends (':' :: ':' :: text) := by
    refine ⟨clear_cons _ (by decide) (by decide), ?_⟩
    rintro _ ⟨⟩
    exact clear_cons _ (by decide) (by decide)
  have first := reads_groups 0 8 head (by omega) ends
  rw [renderGroups_spelled]
  have short : head.length ≠ 8 := by omega
  have missing : 8 - head.length - tail.length = zeros := by omega
  refine first.bind ?_
  simp only [dif_neg short, Bool.false_eq_true, if_false]
  refine (reads_char ':' _).bind <| (reads_char ':' _).bind <| reads.bind ?_
  simp only [missing, ← groups, ip.length_groups, dif_pos]
  exact reads_pure ip rest

theorem mapped_groups {ip : Ipv6} {v4 : Ipv4} (h : ip.mapped? = some v4) :
    ip.groups = List.replicate 5 0 ++ [0xFFFF, UInt16.ofNat (v4.a.toNat * 256 + v4.b.toNat),
      UInt16.ofNat (v4.c.toNat * 256 + v4.d.toNat)] := by
  have joined : ∀ word : UInt16,
      UInt16.ofNat ((word >>> 8).toUInt8.toNat * 256 + word.toUInt8.toNat) = word := by
    intro word
    have small : word.toNat < 65536 := word.toNat_lt
    apply UInt16.toNat.inj
    simp [Nat.shiftRight_eq_div_pow]
    omega
  unfold mapped? at h
  split at h
  · rename_i high low groups
    cases h
    rw [joined, joined, groups]
    rfl
  · cases h

theorem reads_dotted (first : UInt16) (v4 : Ipv4) {rest : List Char} (clear : Clear rest) :
    (groupsFrom 0 7).Reads (Nat.toDigits 16 first.toNat ++ ':' :: (v4.render.toList ++ rest))
      ([first, UInt16.ofNat (v4.a.toNat * 256 + v4.b.toNat),
        UInt16.ofNat (v4.c.toNat * 256 + v4.d.toNat)], true) rest := by
  have colon : Clear (':' :: (v4.render.toList ++ rest)) := clear_cons _ (by decide) (by decide)
  have not_dotted : (separated ':' 0 ipv4).run (Nat.toDigits 16 first.toNat ++ _) = none :=
    (separated_mark _).trans (ipv4_group first.toNat colon)
  have group : (separated ':' 0 group).run (Nat.toDigits 16 first.toNat ++ _) = some (first, _) :=
    (separated_mark _).trans (reads_group first colon.stops)
  have dotted : (separated ':' 1 ipv4).run (mark 1 ++ (v4.render.toList ++ rest)) =
      some (v4, rest) := by
    rw [separated_mark]
    exact reads_ipv4 v4 clear.stops_ten
  have marked : mark 1 = [':'] := rfl
  rw [marked, List.cons_append, List.nil_append] at dotted
  simp only [Reads, StateT.run, groupsFrom] at not_dotted group dotted ⊢
  simp [not_dotted, group, dotted]

theorem reads_mapped {ip : Ipv6} {v4 : Ipv4} (h : ip.mapped? = some v4) {rest : List Char}
    (clear : Clear rest) : ipv6.Reads (("::ffff:" ++ v4.render).toList ++ rest) ip rest := by
  have digits : Nat.toDigits 16 (0xFFFF : UInt16).toNat = "ffff".toList := by decide
  have reads : ipv6.Reads ((renderGroups []).toList ++ ':' :: ':' :: _) ip rest :=
    reads_shortened ip (by decide : 0 < 5) (mapped_groups h) (reads_dotted 0xFFFF v4 clear)
  rw [digits] at reads
  simpa [renderGroups] using reads

theorem reads_ipv6 (ip : Ipv6) {rest : List Char} (ends : Ends rest) :
    ipv6.Reads (ip.render.toList ++ rest) ip rest := by
  unfold render
  split
  · rename_i v4 mapped
    exact reads_mapped mapped ends.1
  · have zeros := longestRun_zeros ip.groups
    generalize longestRun ip.groups = run at zeros ⊢
    obtain ⟨start, length⟩ := run
    dsimp only at zeros ⊢
    split
    · exact reads_whole ip ends
    · rename_i several
      have groups : ip.groups = ip.groups.take start ++ List.replicate length 0 ++
          ip.groups.drop (start + length) := by
        rw [← zeros, List.append_assoc, ← List.drop_drop, List.take_append_drop,
          List.take_append_drop]
      have total := congrArg List.length groups
      simp only [ip.length_groups, List.length_append, List.length_replicate] at total
      have tail := reads_groups 0 (7 - (ip.groups.take start).length)
        (ip.groups.drop (start + length)) (by omega) ends
      have reads := reads_shortened ip (by omega) groups tail
      simpa [renderGroups_spelled] using reads

end Ipv6

namespace SocketAddress
open Scanner

theorem reads_port (port : UInt16) :
    Scanner.port.Reads (':' :: (toString port).toList) port [] := by
  have text : (toString port).toList = Nat.toDigits 10 port.toNat := Nat.toList_repr
  have reads : (number 10 UInt16.size none true).Reads (Nat.toDigits 10 port.toNat ++ [])
      port.toNat [] :=
    reads_number (by decide) (by decide) port.toNat_lt (by simp) (by simp [Stops])
  rw [List.append_nil] at reads
  rw [text]
  refine (reads_char ':' _).bind <| reads.bind ?_
  rw [UInt16.ofNat_toNat]
  exact reads_pure port []

theorem reads_scope (scope : UInt32) (rest : List Char) :
    Scanner.scope.Reads ((if scope = 0 then [] else '%' :: (toString scope).toList) ++ ']' :: rest)
      scope (']' :: rest) := by
  by_cases zero : scope = 0
  · subst zero
    rfl
  · have text : (toString scope).toList = Nat.toDigits 10 scope.toNat := Nat.toList_repr
    have stops : Stops 10 (']' :: rest) := by simp [Stops, digit?]
    have reads : (number 10 UInt32.size none true).Reads
        (Nat.toDigits 10 scope.toNat ++ ']' :: rest) scope.toNat (']' :: rest) :=
      reads_number (by decide) (by decide) scope.toNat_lt (by simp) stops
    rw [if_neg zero, text]
    refine Reads.bind rfl <| (reads_char '%' _).bind <| reads.bind ?_
    rw [UInt32.ofNat_toNat]
    exact reads_pure scope _

theorem render_v4 (ip : Ipv4) (port : UInt16) :
    (v4 ip port).render.toList = ip.render.toList ++ ':' :: (toString port).toList := by
  simp [render, renderHost, SocketAddress.port, toString_self]

theorem render_v6 (ip : Ipv6) (port : UInt16) (scope : UInt32) :
    (v6 ip port scope).render.toList = '[' :: (ip.render.toList ++
      ((if scope = 0 then [] else '%' :: (toString scope).toList) ++
        ']' :: ':' :: (toString port).toList)) := by
  by_cases zero : scope = 0 <;>
    simp [render, renderHost, SocketAddress.port, toString_self, zero]

theorem ipv4_cons (ip : Ipv4) :
    ∃ c others, ip.render.toList = c :: others ∧ (digit? 10 c).isSome = true := by
  have text : (toString ip.a).toList = Nat.toDigits 10 ip.a.toNat := Nat.toList_repr
  obtain ⟨c, others, digits⟩ := List.exists_cons_of_ne_nil (@Nat.toDigits_ne_nil ip.a.toNat 10)
  refine ⟨c, others ++ '.' :: ((toString ip.b).toList ++ '.' :: ((toString ip.c).toList ++
    '.' :: (toString ip.d).toList)), ?_, ?_⟩
  · simp [Ipv4.render, toString_self, text, digits]
  · exact isSome_toDigits (by decide) (by decide) (digits ▸ List.mem_cons_self)

theorem reads_render (address : SocketAddress) :
    socketAddress.Reads address.render.toList address [] := by
  cases address with
  | v4 ip port =>
    have colon : Stops 10 (':' :: (toString port).toList) := by simp [Stops, digit?]
    obtain ⟨c, others, text, digit⟩ := ipv4_cons ip
    have reads := reads_ipv4 ip colon
    rw [render_v4]
    rw [text, List.cons_append] at reads ⊢
    refine Reads.bind rfl ?_
    split
    · rename_i bracket
      obtain ⟨rfl, -⟩ := List.cons.inj bracket
      simp [digit?] at digit
    · exact reads.bind <| (reads_port port).bind <| reads_pure (v4 ip port) []
  | v6 ip port scope =>
    have ends : Ends ((if scope = 0 then [] else '%' :: (toString scope).toList) ++
        ']' :: ':' :: (toString port).toList) := by
      by_cases zero : scope = 0
      · simp [Ends, Clear, zero, digit?]
      · simp [Ends, Clear, zero, digit?]
    rw [render_v6]
    refine Reads.bind rfl <| (reads_char '[' _).bind <| (Ipv6.reads_ipv6 ip ends).bind <|
      (reads_scope scope _).bind <| (reads_char ']' _).bind <| (reads_port port).bind ?_
    exact reads_pure (v6 ip port scope) []

theorem trim_render (address : SocketAddress) :
    trim address.render.toList = address.render.toList := by
  have digits (port : UInt16) : (toString port).toList = Nat.toDigits 10 port.toNat :=
    Nat.toList_repr
  cases address with
  | v4 ip port =>
    obtain ⟨c, others, text, digit⟩ := ipv4_cons ip
    rw [render_v4, digits, ← List.singleton_append, ← List.append_assoc]
    exact trim_number (by simpa [text] using digit_not_blank digit)
  | v6 ip port scope =>
    rw [render_v6, digits]
    have reads := @trim_number ('[' :: (ip.render.toList ++
      ((if scope = 0 then [] else '%' :: (toString scope).toList) ++ [']', ':']))) port.toNat
      (by simp; decide)
    simpa using reads

theorem parse_render (address : SocketAddress) :
    parse? address.render.toList = some address := by
  have reads := reads_render address
  unfold Reads at reads
  simp [parse?, whole?, reads]

end SocketAddress
end FaultDrill.Net
