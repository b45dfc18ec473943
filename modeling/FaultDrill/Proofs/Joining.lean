import FaultDrill.Group.Bootstrap
import FaultDrill.Proofs.Rank
set_option autoImplicit false

namespace FaultDrill

namespace Rank

theorem eq_interval {ranks : List Rank} {first count : Nat} (fits : first + count ≤ UInt32.size)
    (ascending : ranks.Pairwise fun a b => a.index < b.index)
    (bounds : ∀ rank ∈ ranks, first ≤ rank.index.toNat ∧ rank.index.toNat < first + count)
    (many : count ≤ ranks.length) : ranks = interval first count := by
  induction count generalizing ranks first with
  | zero =>
    cases ranks with
    | nil => rfl
    | cons rank ranks =>
      have := bounds rank List.mem_cons_self
      omega
  | succ count ih =>
    cases ranks with
    | nil => simp at many
    | cons rank ranks =>
      obtain ⟨above, ascending⟩ := List.pairwise_cons.mp ascending
      obtain ⟨low, high⟩ := bounds rank List.mem_cons_self
      have later : ∀ other ∈ ranks,
          first + 1 ≤ other.index.toNat ∧ other.index.toNat < first + 1 + count := by
        intro other hm
        have := UInt32.lt_iff_toNat_lt.mp (above other hm)
        have := bounds other (List.mem_cons_of_mem _ hm)
        omega
      have rest := ih (by omega) ascending later (by simpa using many)
      have index : rank.index.toNat = first := by
        cases count with
        | zero => omega
        | succ count =>
          -- The next rank is the least that is left, and this one is below it.
          have next : (⟨UInt32.ofNat (first + 1)⟩ : Rank) ∈ ranks := by simp [rest, interval]
          have below := UInt32.lt_iff_toNat_lt.mp (above _ next)
          rw [UInt32.toNat_ofNat_of_lt' (by omega)] at below
          omega
      rw [interval, ← rest, ← index, UInt32.ofNat_toNat]

end Rank

namespace Bootstrap

/-- The links of different members, in the order of their ranks, as they are made. -/
structure Joined (size : UInt32) (links : List Link) : Prop where
  ascending : (links.map Link.peer).Pairwise fun a b => a.index < b.index
  members : ∀ link ∈ links, link.peer ∈ Rank.members size
  fresh : ∀ link ∈ links, link.live = true ∧ link.pending = []

theorem mem_insertLink {link other : Link} {links : List Link} :
    other ∈ insertLink link links ↔ other = link ∨ other ∈ links := by
  induction links with
  | nil => simp [insertLink]
  | cons first rest ih =>
    unfold insertLink
    split
    · simp
    · simp [ih, or_left_comm]

variable {size : UInt32} {links : List Link}

theorem ascending_insertLink {link : Link}
    (ascending : (links.map Link.peer).Pairwise fun a b => a.index < b.index)
    (missing : ∀ other ∈ links, other.peer ≠ link.peer) :
    ((insertLink link links).map Link.peer).Pairwise fun a b => a.index < b.index := by
  induction links with
  | nil => simp [insertLink]
  | cons first rest ih =>
    obtain ⟨different, others⟩ := List.forall_mem_cons.mp missing
    simp only [List.map_cons, List.pairwise_cons, List.forall_mem_map] at ascending
    obtain ⟨above, ascending⟩ := ascending
    unfold insertLink
    split
    · rename_i below
      simp only [List.map_cons, List.pairwise_cons, List.forall_mem_cons, List.forall_mem_map]
      exact ⟨⟨below, fun other hm => UInt32.lt_trans below (above other hm)⟩, above, ascending⟩
    · rename_i not_below
      simp only [List.map_cons, List.pairwise_cons, List.forall_mem_map]
      refine ⟨fun other hm => ?_, ih ascending others⟩
      rcases mem_insertLink.mp hm with rfl | hm
      · have distinct : first.peer.index ≠ other.peer.index := fun he =>
          different (congrArg Rank.mk he)
        exact UInt32.lt_of_le_of_ne (UInt32.not_lt.mp not_below) distinct
      · exact above other hm

theorem Joined.insert (h : Joined size links) {link : Link} (member : link.peer ∈ Rank.members size)
    (missing : ∀ other ∈ links, other.peer ≠ link.peer)
    (fresh : link.live = true ∧ link.pending = []) : Joined size (insertLink link links) := by
  refine ⟨ascending_insertLink h.ascending missing, fun other hm => ?_, fun other hm => ?_⟩
  · rcases mem_insertLink.mp hm with rfl | hm
    · exact member
    · exact h.members other hm
  · rcases mem_insertLink.mp hm with rfl | hm
    · exact fresh
    · exact h.fresh other hm

theorem isMissing_iff {rank : Rank} : isMissing size links rank = true ↔
    rank ∈ Rank.members size ∧ ∀ link ∈ links, link.peer ≠ rank := by
  simp [isMissing, Rank.mem_members, UInt32.le_iff_toNat_le, UInt32.lt_iff_toNat_lt]

/-- Whatever connections come, the links stay those of members that have joined. -/
theorem gather_joined {expected : Nat} {peer : String} {connections : List Incoming}
    {complete : List Link} {notes : List LogEntry} (h : Joined size links)
    (gathered : gather size expected peer links connections = (.complete complete, notes)) :
    Joined size complete ∧ expected ≤ complete.length := by
  induction connections generalizing links notes with
  | nil =>
    simp only [gather] at gathered
    split at gathered
    · cases gathered
    · cases gathered
      exact ⟨h, by omega⟩
  | cons connection others ih =>
    unfold gather at gathered
    split at gathered
    · cases gathered
      exact ⟨h, by omega⟩
    · -- A connection that is rejected leaves the links as they are.
      have rejecting : (gather size expected peer links others).1 = .complete complete →
          Joined size complete ∧ expected ≤ complete.length :=
        fun hc => ih h (Prod.ext hc rfl)
      dsimp only at gathered
      split at gathered
      · cases gathered
      · split at gathered
        · rename_i rank rest arrivals missing
          obtain ⟨member, absent⟩ := isMissing_iff.mp missing
          exact ih (h.insert member absent ⟨rfl, rfl⟩) (Prod.ext (Prod.mk.inj gathered).1 rfl)
        · exact rejecting (Prod.mk.inj gathered).1
      · exact rejecting (Prod.mk.inj gathered).1
      · split at gathered
        · exact rejecting (Prod.mk.inj gathered).1
        · cases gathered

theorem accepted {timeout : Duration} {address peer : String} {connections : List Incoming}
    {c : Communicator} {notes : List LogEntry}
    (h : acceptMembers size timeout address peer connections = (.ok c, notes)) :
    ∃ links, c = ⟨.coordinator, size, .hub links⟩ ∧ links.map Link.peer = Rank.members size ∧
      ∀ link ∈ links, link.live = true ∧ link.pending = [] := by
  unfold acceptMembers at h
  dsimp only at h
  split at h
  · rename_i links gathered
    cases h
    obtain ⟨joined, many⟩ := gather_joined ⟨.nil, by simp, by simp⟩ (Prod.ext gathered rfl)
    refine ⟨links, rfl, ?_, joined.fresh⟩
    have bound : size.toNat < UInt32.size := size.toNat_lt
    refine Rank.eq_interval (by omega) joined.ascending ?_ (by simpa [expectedMembers] using many)
    intro rank hm
    obtain ⟨link, hl, rfl⟩ := List.mem_map.mp hm
    have := Rank.mem_members.mp (joined.members link hl)
    omega
  · cases h
  · cases h

end Bootstrap
end FaultDrill
