import FaultDrill.Participant
import FaultDrill.Proofs.Numeral
set_option autoImplicit false

namespace FaultDrill.Rank

theorem mem_interval {first count : Nat} (h : first + count ≤ UInt32.size) {rank : Rank} :
    rank ∈ interval first count ↔ first ≤ rank.index.toNat ∧ rank.index.toNat < first + count := by
  induction count generalizing first with
  | zero => simp [interval]
  | succ count ih =>
    have hfirst : (UInt32.ofNat first).toNat = first := UInt32.toNat_ofNat_of_lt' (by omega)
    rw [interval, List.mem_cons, ih (by omega)]
    constructor
    · rintro (rfl | hr)
      · simp only [hfirst]
        omega
      · omega
    · intro hr
      by_cases he : rank.index.toNat = first
      · left
        cases rank with
        | mk index => exact congrArg Rank.mk (UInt32.toNat.inj (he.trans hfirst.symm))
      · right
        omega

theorem nodup_interval {first count : Nat} (h : first + count ≤ UInt32.size) :
    (interval first count).Nodup := by
  induction count generalizing first with
  | zero => exact List.nodup_nil
  | succ count ih =>
    have hfirst : (UInt32.ofNat first).toNat = first := UInt32.toNat_ofNat_of_lt' (by omega)
    refine List.nodup_cons.mpr ⟨?_, ih (by omega)⟩
    rw [mem_interval (by omega)]
    simp only [hfirst]
    omega

theorem ascending_interval {first count : Nat} (h : first + count ≤ UInt32.size) :
    (interval first count).Pairwise fun a b => a.index < b.index := by
  induction count generalizing first with
  | zero => exact List.Pairwise.nil
  | succ count ih =>
    have hfirst : (UInt32.ofNat first).toNat = first := UInt32.toNat_ofNat_of_lt' (by omega)
    refine List.pairwise_cons.mpr ⟨fun rank hr => ?_, ih (by omega)⟩
    have bounds := (mem_interval (by omega)).mp hr
    rw [UInt32.lt_iff_toNat_lt, hfirst]
    omega

theorem length_interval (first count : Nat) : (interval first count).length = count := by
  induction count generalizing first with
  | zero => rfl
  | succ count ih => rw [interval, List.length_cons, ih]

theorem getElem?_interval {first count index : Nat} (h : index < count) :
    (interval first count)[index]? = some ⟨UInt32.ofNat (first + index)⟩ := by
  induction count generalizing first index with
  | zero => omega
  | succ count ih =>
    cases index with
    | zero => rfl
    | succ index =>
      rw [interval, List.getElem?_cons_succ, ih (by omega), Nat.add_right_comm, Nat.add_assoc]

theorem mem_group {size : UInt32} {rank : Rank} : rank ∈ group size ↔ rank.index < size := by
  have hs : size.toNat < UInt32.size := size.toNat_lt
  rw [group, mem_interval (by omega), UInt32.lt_iff_toNat_lt]
  omega

theorem getElem?_group {size : UInt32} {index : Nat} (h : index < size.toNat) :
    (group size)[index]? = some ⟨UInt32.ofNat index⟩ := by
  rw [group, getElem?_interval h, Nat.zero_add]

theorem mem_members {size : UInt32} {rank : Rank} :
    rank ∈ members size ↔ 1 ≤ rank.index.toNat ∧ rank.index.toNat < size.toNat := by
  have hs : size.toNat < UInt32.size := size.toNat_lt
  rw [members, mem_interval (by omega)]
  omega

theorem nodup_members (size : UInt32) : (members size).Nodup :=
  nodup_interval (by have hs : size.toNat < UInt32.size := size.toNat_lt; omega)

theorem ascending_members (size : UInt32) :
    (members size).Pairwise fun a b => a.index < b.index :=
  ascending_interval (by have hs : size.toNat < UInt32.size := size.toNat_lt; omega)

theorem mem_before {size : UInt32} {rank other : Rank} {before after : List Rank}
    (split : members size = before ++ rank :: after) (mem : other ∈ members size)
    (below : other.index < rank.index) : other ∈ before := by
  have ascending := ascending_members size
  rw [split, List.pairwise_append, List.pairwise_cons] at ascending
  rw [split, List.mem_append, List.mem_cons] at mem
  rcases mem with mem | rfl | mem
  · exact mem
  · exact absurd below (UInt32.lt_irrefl _)
  · exact absurd (ascending.2.1.1 other mem) (UInt32.lt_asymm below)

theorem coordinator_not_mem (size : UInt32) : coordinator ∉ members size := by
  rw [mem_members]
  exact fun h => absurd h.1 (by decide)

theorem isCoordinator_iff {rank : Rank} : rank.isCoordinator = true ↔ rank = coordinator := by
  simp [isCoordinator]

theorem member_ne {size : UInt32} {rank : Rank} (h : rank ∈ members size) :
    rank ≠ coordinator := by
  rintro rfl
  exact coordinator_not_mem size h

theorem isCoordinator_member {size : UInt32} {rank : Rank} (h : rank ∈ members size) :
    rank.isCoordinator = false := by
  simpa [isCoordinator] using member_ne h

/-- The coordinator and the members, which are there whatever the size is. -/
def everybody (size : UInt32) : List Rank := coordinator :: members size

def peers (size : UInt32) (rank : Rank) : List Rank :=
  if rank.isCoordinator then members size else [coordinator]

theorem peers_member {size : UInt32} {rank : Rank} (h : rank ∈ members size) :
    rank.peers size = [coordinator] := by
  simp [peers, isCoordinator_member h]

theorem coordinator_mem_peers {size : UInt32} {rank : Rank} (h : rank ∈ members size) :
    coordinator ∈ rank.peers size := by
  rw [peers_member h]
  exact List.mem_singleton_self _

theorem nodup_peers (size : UInt32) (rank : Rank) : (rank.peers size).Nodup := by
  unfold peers
  split
  · exact nodup_members size
  · simp

theorem mem_everybody {size : UInt32} {rank : Rank} :
    rank ∈ everybody size ↔ rank = coordinator ∨ rank ∈ members size :=
  List.mem_cons

theorem nodup_everybody (size : UInt32) : (everybody size).Nodup :=
  List.nodup_cons.mpr ⟨coordinator_not_mem size, nodup_members size⟩

/-- The line is the rank in decimal digits, which can be read back. -/
theorem farewell_injective {a b : Rank} (h : a.farewell = b.farewell) : a = b := by
  have lines : "goodbye from rank " ++ a.index.toNat.repr =
      "goodbye from rank " ++ b.index.toNat.repr := h
  have digits : Nat.toDigits 10 a.index.toNat = Nat.toDigits 10 b.index.toNat :=
    String.ofList_injective ((String.append_right_inj _).mp lines)
  have same := congrArg Text.readDigits? digits
  rw [Text.readDigits_toDigits, Text.readDigits_toDigits, Option.some.injEq,
    UInt32.toNat_inj] at same
  exact congrArg Rank.mk same

theorem nodup_farewells {ranks : List Rank} (h : ranks.Nodup) : (ranks.map farewell).Nodup :=
  List.pairwise_map.mpr (h.imp fun different same => different (farewell_injective same))

theorem coordinator_mem_everybody (size : UInt32) : coordinator ∈ everybody size :=
  mem_everybody.mpr (.inl rfl)

theorem isCoordinator_peer {size : UInt32} {a b : Rank} (hb : b ∈ a.peers size) :
    b.isCoordinator = !a.isCoordinator := by
  unfold peers at hb
  split at hb
  · rename_i ha
    rw [isCoordinator_member hb, ha]
    rfl
  · rename_i ha
    rw [List.mem_singleton.mp hb, Bool.eq_false_iff.mpr ha]
    rfl

theorem peers_symm {size : UInt32} {a b : Rank} (ha : a ∈ everybody size)
    (hb : b ∈ a.peers size) : b ∈ everybody size ∧ a ∈ b.peers size ∧ a ≠ b := by
  rcases mem_everybody.mp ha with rfl | ha
  · exact ⟨mem_everybody.mpr (.inr hb), coordinator_mem_peers hb, (member_ne hb).symm⟩
  · rw [peers_member ha] at hb
    obtain rfl := List.mem_singleton.mp hb
    exact ⟨mem_everybody.mpr (.inl rfl), ha, member_ne ha⟩

end FaultDrill.Rank
