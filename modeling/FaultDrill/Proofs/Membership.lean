import FaultDrill.Proofs.Joining
import FaultDrill.Proofs.Network
import FaultDrill.Proofs.Stream
import Mathlib.Data.List.Basic
set_option autoImplicit false

/-!
# Who is bound to which connection

The coordinator goes through the connections in the order in which they come. The links that it
has are at any time those of the members that have joined so far, each made of the first connection
that joined as it; any other connection that can be read leaves them as they are. It stops as soon
as nobody is missing, and for a connection that cannot be read, or not yet.
-/
namespace FaultDrill

namespace Incoming

/-- The first read of a connection: a frame, none if it was closed without one, or a failure.
There is nothing to be read as long as no whole frame has come. -/
def first? (connection : Incoming) : Option (Except ComponentError (Option Frame)) :=
  match connection.inbox.arrivals with
  | .frame frame :: _ => some (.ok (some frame))
  | .fault error :: _ => some (.error error)
  | [] => if connection.closed then some (.ok none) else none

def joining? (connection : Incoming) : Option Rank :=
  match connection.first? with
  | some (.ok (some (.join rank))) => some rank
  | _ => none

def joins (connection : Incoming) (rank : Rank) : Bool := connection.joining? == some rank

/-- The connection can be read: it sends a frame first, or is closed without one. -/
def IsReadable (connection : Incoming) : Prop := ∃ frame, connection.first? = some (.ok frame)

def link (connection : Incoming) (rank : Rank) : Link :=
  { Link.opened rank with inbox := ⟨connection.inbox.arrivals.tail, connection.inbox.tail⟩ }

theorem joins_iff {connection : Incoming} {rank : Rank} :
    connection.joins rank = true ↔ connection.joining? = some rank := beq_iff_eq

end Incoming

namespace Bootstrap

variable {size : UInt32} {expected : Nat} {peer : String} {links : List Link}
  {connection : Incoming}

def welcome (size : UInt32) (links : List Link) (connection : Incoming) : List Link :=
  match connection.joining? with
  | some rank =>
    if isMissing size links rank then insertLink (connection.link rank) links else links
  | none => links

def verdict (size : UInt32) (peer : String) (links : List Link) : Option Frame → LogEntry
  | some (.join rank) =>
    if isMissing size links rank then note .debug .coordinator s!"🔗 Rank {rank} joined from {peer}"
    else rejected peer (some (.join rank))
  | frame => rejected peer frame

theorem gather_complete (enough : expected ≤ links.length) (connections : List Incoming) :
    gather size expected peer links connections = (.complete links, []) := by
  cases connections with
  | nil => rw [gather, if_neg (by omega)]
  | cons => rw [gather, if_pos enough]

section Short

variable (short : links.length < expected) (others : List Incoming)
include short

theorem gather_nil : gather size expected peer links [] = (.expired, []) := by
  rw [gather, if_pos short]

theorem gather_failed {error : ComponentError} (h : connection.first? = some (.error error)) :
    gather size expected peer links (connection :: others) = (.failed error, []) := by
  obtain ⟨⟨arrivals, tail⟩, closed⟩ := connection
  cases arrivals with
  | nil => cases closed <;> cases h
  | cons arrival rest =>
    cases arrival with
    | frame => cases h
    | fault =>
      cases h
      rw [gather, if_neg (by omega)]

theorem gather_waits (h : connection.first? = none) :
    gather size expected peer links (connection :: others) = (.expired, []) := by
  obtain ⟨⟨arrivals, tail⟩, closed⟩ := connection
  cases arrivals with
  | nil =>
    cases closed with
    | true => cases h
    | false =>
      rw [gather, if_neg (by omega)]
      rfl
  | cons arrival => cases arrival <;> cases h

theorem gather_next {frame : Option Frame} (h : connection.first? = some (.ok frame)) :
    gather size expected peer links (connection :: others) =
      Prod.map id (verdict size peer links frame :: ·)
        (gather size expected peer (welcome size links connection) others) := by
  obtain ⟨⟨arrivals, tail⟩, closed⟩ := connection
  cases arrivals with
  | nil =>
    cases closed with
    | true =>
      cases h
      rw [gather, if_neg (by omega)]
      rfl
    | false => cases h
  | cons arrival rest =>
    cases arrival with
    | fault => cases h
    | frame first =>
      cases h
      rw [gather, if_neg (by omega)]
      cases first with
      | join rank =>
        by_cases missing : isMissing size links rank = true
        · simp only [welcome, verdict, Incoming.joining?, Incoming.first?, missing, if_true]
          rfl
        · simp only [welcome, verdict, Incoming.joining?, Incoming.first?, missing]
          rfl
      | data | barrierEnter | barrierRelease | broadcast => rfl

end Short

/-- What the first of the connections that join as a member becomes. -/
def linkOf (past : List Incoming) (rank : Rank) : Option Link :=
  (past.find? (·.joins rank)).map (·.link rank)

def bound (size : UInt32) (past : List Incoming) : List Link :=
  (Rank.members size).filterMap (linkOf past)

/-- Every member joins in these connections. -/
def Complete (size : UInt32) (past : List Incoming) : Prop :=
  ∀ rank ∈ Rank.members size, ∃ connection ∈ past, connection.joins rank = true

theorem insertLink_least {link : Link}
    (least : ∀ other ∈ links, link.peer.index < other.peer.index) :
    insertLink link links = link :: links := by
  cases links with
  | nil => rfl
  | cons first rest => exact if_pos (least first List.mem_cons_self)

theorem insertLink_filterMap {ranks : List Rank}
    (ascending : ranks.Pairwise fun a b => a.index < b.index) {old new : Rank → Option Link}
    {link : Link} (mem : link.peer ∈ ranks)
    (peers : ∀ rank other, old rank = some other → other.peer = rank)
    (absent : old link.peer = none) (here : new link.peer = some link)
    (elsewhere : ∀ rank, rank ≠ link.peer → new rank = old rank) :
    insertLink link (ranks.filterMap old) = ranks.filterMap new := by
  induction ranks with
  | nil => cases mem
  | cons rank rest ih =>
    obtain ⟨above, ascending⟩ := List.pairwise_cons.mp ascending
    -- At its own rank the link goes in front of all that follow; before that it is passed on.
    by_cases he : rank = link.peer
    · subst he
      have others : rest.filterMap new = rest.filterMap old :=
        List.filterMap_congr fun other hm => elsewhere other fun same =>
          UInt32.lt_irrefl _ (same ▸ above other hm)
      rw [List.filterMap_cons_none absent, List.filterMap_cons_some here, others]
      refine insertLink_least fun other hm => ?_
      obtain ⟨rank, hr, found⟩ := List.mem_filterMap.mp hm
      exact peers rank other found ▸ above rank hr
    · have later : link.peer ∈ rest := (List.mem_cons.mp mem).resolve_left (Ne.symm he)
      have same := elsewhere rank he
      cases found : old rank with
      | none =>
        rw [List.filterMap_cons_none found, List.filterMap_cons_none (same.trans found)]
        exact ih ascending later
      | some other =>
        have not_below : ¬link.peer.index < other.peer.index := by
          rw [peers rank other found]
          exact UInt32.lt_asymm (above _ later)
        rw [List.filterMap_cons_some found, List.filterMap_cons_some (same.trans found),
          insertLink, if_neg not_below, ih ascending later]

theorem linkOf_peer {past : List Incoming} {rank : Rank} {link : Link}
    (h : linkOf past rank = some link) : link.peer = rank := by
  obtain ⟨connection, -, rfl⟩ := Option.map_eq_some_iff.mp h
  rfl

theorem linkOf_eq_none {past : List Incoming} {rank : Rank} :
    linkOf past rank = none ↔ ∀ other ∈ past, other.joins rank = false := by
  simp [linkOf]

theorem linkOf_first {past : List Incoming} {rank : Rank}
    (absent : ∀ other ∈ past, other.joins rank = false) (joins : connection.joins rank = true) :
    linkOf (past ++ [connection]) rank = some (connection.link rank) := by
  have unfound : past.find? (·.joins rank) = none :=
    List.find?_eq_none.mpr fun other hm => by simp [absent other hm]
  rw [linkOf, List.find?_append, unfound, Option.none_or]
  simp [joins]

theorem linkOf_append {past : List Incoming} {rank : Rank}
    (old : connection.joins rank = false ∨ linkOf past rank ≠ none) :
    linkOf (past ++ [connection]) rank = linkOf past rank := by
  unfold linkOf at old ⊢
  rw [List.find?_append]
  cases found : past.find? (·.joins rank) with
  | some first => rfl
  | none =>
    have other := old.resolve_right fun some => some (by rw [found]; rfl)
    rw [Option.none_or, List.find?_cons_of_neg (by simp [other])]
    rfl

theorem isMissing_bound {past : List Incoming} {rank : Rank} :
    isMissing size (bound size past) rank = true ↔
      rank ∈ Rank.members size ∧ linkOf past rank = none := by
  rw [isMissing_iff]
  refine and_congr_right fun among => ⟨fun missing => ?_, fun missing link hm => ?_⟩
  · cases found : linkOf past rank with
    | none => rfl
    | some link =>
      exact absurd (linkOf_peer found) (missing link (List.mem_filterMap.mpr ⟨rank, among, found⟩))
  · rintro rfl
    obtain ⟨rank, -, found⟩ := List.mem_filterMap.mp hm
    obtain rfl := linkOf_peer found
    cases missing.symm.trans found

theorem bound_append (past : List Incoming) (connection : Incoming) :
    bound size (past ++ [connection]) = welcome size (bound size past) connection := by
  have others : ∀ {rank other}, connection.joining? = some rank → other ≠ rank →
      connection.joins other = false := by
    intro rank other joins ne
    simp [Incoming.joins, joins, ne.symm]
  unfold welcome
  split
  · rename_i rank joins
    split
    · rename_i missing
      obtain ⟨among, absent⟩ := isMissing_bound.mp missing
      refine (insertLink_filterMap (Rank.ascending_members size) among (fun _ _ => linkOf_peer)
        absent ?_ ?_).symm
      · exact linkOf_first (linkOf_eq_none.mp absent) (Incoming.joins_iff.mpr joins)
      · exact fun other ne => linkOf_append (.inl (others joins ne))
    · rename_i present
      refine List.filterMap_congr fun other among => linkOf_append ?_
      by_cases he : other = rank
      · subst he
        exact .inr fun absent => present (isMissing_bound.mpr ⟨among, absent⟩)
      · exact .inl (others joins he)
  · rename_i joins
    refine List.filterMap_congr fun other _ => linkOf_append (.inl ?_)
    simp [Incoming.joins, joins]

theorem expected_le_iff {past : List Incoming} :
    expectedMembers size ≤ (bound size past).length ↔ Complete size past := by
  have everybody : (Rank.members size).length = expectedMembers size := Rank.length_interval 1 _
  have linked : ∀ rank, (linkOf past rank).isSome = true ↔
      ∃ connection ∈ past, connection.joins rank = true := fun rank => by simp [linkOf]
  rw [← everybody, bound, List.length_filterMap_eq_countP]
  constructor
  · intro enough rank among
    have all := Nat.le_antisymm List.countP_le_length enough
    exact (linked rank).mp (List.countP_eq_length.mp all rank among)
  · intro complete
    have all := List.countP_eq_length.mpr fun rank among => (linked rank).mpr (complete rank among)
    exact Nat.le_of_eq all.symm

theorem bound_short {past : List Incoming} (missing : ¬Complete size past) :
    (bound size past).length < expectedMembers size :=
  Nat.lt_of_not_le (mt expected_le_iff.mp missing)

/-- The coordinator has gone through some connections, noted something about each, and goes on
with these links. -/
def Reaches (size : UInt32) (peer : String) (past : List Incoming) (links : List Link) : Prop :=
  ∃ notes : List LogEntry, notes.length = past.length ∧ ∀ others,
    gather size (expectedMembers size) peer [] (past ++ others) =
      Prod.map id (notes ++ ·) (gather size (expectedMembers size) peer links others)

theorem reaches_nil (size : UInt32) (peer : String) : Reaches size peer [] (bound size []) := by
  have empty : bound size [] = [] := List.filterMap_eq_nil_iff.mpr fun _ _ => rfl
  rw [empty]
  exact ⟨[], rfl, fun _ => rfl⟩

theorem Reaches.next {past : List Incoming} (h : Reaches size peer past (bound size past))
    (missing : ¬Complete size past) (readable : connection.IsReadable) :
    Reaches size peer (past ++ [connection]) (bound size (past ++ [connection])) := by
  obtain ⟨notes, count, goes⟩ := h
  obtain ⟨frame, first⟩ := readable
  refine ⟨notes ++ [verdict size peer (bound size past) frame], by simp [count], fun others => ?_⟩
  rw [List.append_assoc, List.singleton_append, goes,
    gather_next (bound_short missing) others first, bound_append]
  simp [Prod.map]

/-- The connections that the coordinator goes through: of all it starts with those that can be read
and that come while somebody is missing. -/
structure Accepted (size : UInt32) (taken : List Incoming) : Prop where
  readable : ∀ connection ∈ taken, connection.IsReadable
  needed : ∀ before connection after, taken = before ++ connection :: after →
    ¬Complete size before

theorem Accepted.nil (size : UInt32) : Accepted size [] := ⟨nofun, by simp⟩

theorem Accepted.next {taken : List Incoming} (h : Accepted size taken)
    (readable : connection.IsReadable) (missing : ¬Complete size taken) :
    Accepted size (taken ++ [connection]) := by
  refine ⟨?_, fun before other after split => ?_⟩
  · exact List.forall_mem_append.mpr ⟨h.readable, by simpa using readable⟩
  · rcases List.eq_nil_or_concat after with rfl | ⟨rest, last, rfl⟩
    · obtain ⟨rfl, -⟩ := List.append_inj' split rfl
      exact missing
    · rw [List.concat_eq_append, ← List.cons_append, ← List.append_assoc] at split
      exact h.needed before other rest (List.append_inj' split rfl).1

theorem Accepted.reaches_from {taken : List Incoming} (h : Accepted size taken)
    {past more after : List Incoming} (split : taken = past ++ (more ++ after))
    (reached : Reaches size peer past (bound size past)) :
    Reaches size peer (past ++ more) (bound size (past ++ more)) := by
  induction more generalizing past with
  | nil => rwa [List.append_nil]
  | cons connection more ih =>
    rw [List.cons_append] at split
    have mem : connection ∈ taken := by
      rw [split]
      exact List.mem_append_right past List.mem_cons_self
    have next := reached.next (h.needed past connection _ split) (h.readable connection mem)
    have further := ih (by rw [split, List.append_assoc]; rfl) next
    rwa [List.append_assoc, List.singleton_append] at further

/-- Whichever of them it has gone through, it has the links of those that have joined so far. -/
theorem Accepted.reaches {taken : List Incoming} (h : Accepted size taken) (peer : String)
    {before after : List Incoming} (split : taken = before ++ after) :
    Reaches size peer before (bound size before) :=
  h.reaches_from split (reaches_nil size peer)

/-- Where the coordinator stops: nobody is missing, no more connection comes, or the next one
cannot be read. -/
theorem accepts_until (size : UInt32) (connections : List Incoming) : ∃ taken rest,
    connections = taken ++ rest ∧ Accepted size taken ∧ (Complete size taken ∨ rest = [] ∨
      ∃ stray later, rest = stray :: later ∧ ¬stray.IsReadable) := by
  -- The induction is on the connections to come, with those that were gone through before them.
  suffices ∀ past, Accepted size past → ∃ taken rest, past ++ connections = taken ++ rest ∧
      Accepted size taken ∧ (Complete size taken ∨ rest = [] ∨
        ∃ stray later, rest = stray :: later ∧ ¬stray.IsReadable) from this [] (.nil size)
  induction connections with
  | nil => exact fun past h => ⟨past, [], rfl, h, .inr (.inl rfl)⟩
  | cons connection others ih =>
    intro past h
    by_cases complete : Complete size past
    · exact ⟨past, _, rfl, h, .inl complete⟩
    · by_cases readable : connection.IsReadable
      · have further := ih (past ++ [connection]) (h.next readable complete)
        rwa [List.append_assoc, List.singleton_append] at further
      · exact ⟨past, _, rfl, h, .inr (.inr ⟨connection, others, rfl, readable⟩)⟩

theorem Complete.append {past : List Incoming} (h : Complete size past) (more : List Incoming) :
    Complete size (past ++ more) := by
  intro rank among
  obtain ⟨connection, hm, joins⟩ := h rank among
  exact ⟨connection, List.mem_append_left more hm, joins⟩

theorem not_complete_iff {past : List Incoming} : ¬Complete size past ↔
    ∃ rank ∈ Rank.members size, ∀ other ∈ past, other.joins rank = false := by
  simp [Complete]

theorem Accepted.of_missing {taken : List Incoming}
    (readable : ∀ connection ∈ taken, connection.IsReadable) (missing : ¬Complete size taken) :
    Accepted size taken :=
  ⟨readable, fun _ _ _ split complete => missing (split ▸ complete.append _)⟩

variable {timeout : Duration} {address : String} {taken : List Incoming}

def expiry (address : String) (timeout : Duration) : GroupError :=
  .connect address s!"Only some members joined within {timeout.inspect}"

theorem acceptMembers_complete (timely : timeout.isZero = true → taken = [])
    (h : Accepted size taken) (complete : Complete size taken) :
    ∃ notes : List LogEntry, notes.length = taken.length + 2 ∧ ∀ unread,
      acceptMembers size timeout address peer (taken ++ unread) =
        (.ok ⟨.coordinator, size, .hub (bound size taken)⟩, notes) := by
  obtain ⟨notes, count, goes⟩ := h.reaches peer (List.append_nil taken).symm
  have enough := expected_le_iff.mpr complete
  have gathered : ∀ unread, gather size (expectedMembers size) peer []
      (if timeout.isZero then [] else taken ++ unread) = (.complete (bound size taken), notes) := by
    intro unread
    have all := fun others => (goes others).trans (by rw [gather_complete enough])
    cases zero : timeout.isZero with
    | true =>
      obtain rfl := timely zero
      simpa [Prod.map] using all []
    | false => simpa [Prod.map] using all unread
  refine ⟨_, ?_, fun unread => by rw [acceptMembers, gathered]⟩
  simp [count]

def conclude (size : UInt32) (timeout : Duration) (address : String) :
    Gathering → Except GroupError Communicator
  | .complete links => .ok ⟨.coordinator, size, .hub links⟩
  | .failed error => .error (.component error)
  | .expired => .error (expiry address timeout)

theorem acceptMembers_result (connections : List Incoming) :
    (acceptMembers size timeout address peer connections).1 =
      conclude size timeout address (gather size (expectedMembers size) peer []
        (if timeout.isZero then [] else connections)).1 := by
  rw [acceptMembers]
  generalize gather size (expectedMembers size) peer [] _ = gathered
  obtain ⟨gathering, notes⟩ := gathered
  cases gathering <;> rfl

section Missing

variable (timely : timeout.isZero = false) (h : Accepted size taken)
  (missing : ¬Complete size taken)
include timely h missing

omit missing in
theorem acceptMembers_rest (rest : List Incoming) :
    (acceptMembers size timeout address peer (taken ++ rest)).1 = conclude size timeout address
      (gather size (expectedMembers size) peer (bound size taken) rest).1 := by
  obtain ⟨notes, -, goes⟩ := h.reaches peer (List.append_nil taken).symm
  rw [acceptMembers_result, timely, if_neg Bool.false_ne_true, goes]
  rfl

theorem acceptMembers_nil : (acceptMembers size timeout address peer taken).1 =
    .error (expiry address timeout) := by
  rw [← List.append_nil taken, acceptMembers_rest timely h, gather_nil (bound_short missing)]
  rfl

theorem acceptMembers_failed {stray : Incoming} {error : ComponentError}
    (unreadable : stray.first? = some (.error error)) (later : List Incoming) :
    (acceptMembers size timeout address peer (taken ++ stray :: later)).1 =
      .error (.component error) := by
  rw [acceptMembers_rest timely h, gather_failed (bound_short missing) later unreadable]
  rfl

theorem acceptMembers_waits {stray : Incoming} (silent : stray.first? = none)
    (later : List Incoming) :
    (acceptMembers size timeout address peer (taken ++ stray :: later)).1 =
      .error (expiry address timeout) := by
  rw [acceptMembers_rest timely h, gather_waits (bound_short missing) later silent]
  rfl

end Missing

theorem accepted_taken {connections : List Incoming} {c : Communicator}
    (h : (acceptMembers size timeout address peer connections).1 = .ok c) :
    ∃ taken unread, connections = taken ++ unread ∧ Accepted size taken ∧ Complete size taken ∧
      (timeout.isZero = true → taken = []) := by
  cases zero : timeout.isZero with
  | true =>
    refine ⟨[], connections, rfl, .nil size, ?_, fun _ => rfl⟩
    apply Classical.not_not.mp
    intro missing
    have short := Nat.zero_lt_of_lt (bound_short missing)
    rw [acceptMembers_result, zero, if_pos rfl, gather_nil short] at h
    cases h
  | false =>
    obtain ⟨taken, rest, rfl, accepted, stops⟩ := accepts_until size connections
    by_cases complete : Complete size taken
    · exact ⟨taken, rest, rfl, accepted, complete, nofun⟩
    · rcases stops.resolve_left complete with rfl | ⟨stray, later, rfl, unreadable⟩
      · rw [List.append_nil, acceptMembers_nil zero accepted complete] at h
        cases h
      · cases first : stray.first? with
        | none =>
          rw [acceptMembers_waits zero accepted complete first] at h
          cases h
        | some read =>
          cases read with
          | ok frame => exact absurd ⟨frame, first⟩ unreadable
          | error error =>
            rw [acceptMembers_failed zero accepted complete first] at h
            cases h

/-- What one connection does after others. Somebody is missing before it; if it is the first that
joins as a member it makes a link, and else the links stay as they are. -/
structure Passage (size : UInt32) (peer : String) (before : List Incoming)
    (connection : Incoming) : Prop where
  missing : ∃ rank ∈ Rank.members size, ∀ other ∈ before, other.joins rank = false
  found : Reaches size peer before (bound size before)
  left : Reaches size peer (before ++ [connection]) (bound size (before ++ [connection]))
  joins : ∀ rank ∈ Rank.members size, connection.joins rank = true →
    (∀ other ∈ before, other.joins rank = false) →
    bound size (before ++ [connection]) = insertLink (connection.link rank) (bound size before)
  rejected : (∀ rank ∈ Rank.members size, connection.joins rank = true →
      ∃ other ∈ before, other.joins rank = true) →
    bound size (before ++ [connection]) = bound size before

theorem Accepted.passage (h : Accepted size taken) (peer : String) {before after : List Incoming}
    (split : taken = before ++ connection :: after) : Passage size peer before connection where
  missing := not_complete_iff.mp (h.needed before connection after split)
  found := h.reaches peer split
  left := h.reaches peer (split.trans (List.append_cons before connection after))
  joins := by
    intro rank among joins absent
    have missing := isMissing_bound.mpr ⟨among, linkOf_eq_none.mpr absent⟩
    rw [bound_append, welcome, Incoming.joins_iff.mp joins]
    exact if_pos missing
  rejected := by
    intro known
    rw [bound_append, welcome]
    split
    · rename_i rank joins
      refine if_neg fun missing => ?_
      obtain ⟨among, absent⟩ := isMissing_bound.mp missing
      obtain ⟨other, hm, early⟩ := known rank among (Incoming.joins_iff.mpr joins)
      cases early.symm.trans (linkOf_eq_none.mp absent other hm)
    · rfl

theorem Complete.peers (h : Complete size taken) :
    (bound size taken).map Link.peer = Rank.members size := by
  have linked : ∀ rank ∈ Rank.members size, (linkOf taken rank).map Link.peer = some rank := by
    intro rank among
    obtain ⟨connection, hm, joins⟩ := h rank among
    cases found : linkOf taken rank with
    | none => cases joins.symm.trans (linkOf_eq_none.mp found connection hm)
    | some link => exact congrArg some (linkOf_peer found)
  rw [bound, List.map_filterMap, List.filterMap_congr linked, List.filterMap_some]

theorem Complete.bound_first (h : Complete size taken) {rank : Rank}
    (among : rank ∈ Rank.members size) :
    ∃ before connection after, taken = before ++ connection :: after ∧
      connection.joins rank = true ∧ (∀ other ∈ before, other.joins rank = false) ∧
      (Topology.hub (bound size taken)).link? rank = some (connection.link rank) := by
  obtain ⟨some, hm, some_joins⟩ := h rank among
  have there : (taken.find? (·.joins rank)).isSome :=
    List.find?_isSome.mpr ⟨some, hm, some_joins⟩
  obtain ⟨connection, found⟩ := Option.isSome_iff_exists.mp there
  obtain ⟨joins, before, after, split, absent⟩ := List.find?_eq_some_iff_append.mp found
  refine ⟨before, connection, after, split, joins,
    fun other hm => by simpa using absent other hm, ?_⟩
  have mem : connection.link rank ∈ (Topology.hub (bound size taken)).links :=
    List.mem_filterMap.mpr ⟨rank, among, by rw [linkOf, found]; rfl⟩
  have nodup : (Topology.hub (bound size taken)).peers.Nodup := by
    rw [show (Topology.hub (bound size taken)).peers = Rank.members size from h.peers]
    exact Rank.nodup_members size
  exact Topology.link_of_mem nodup mem

/-- When members have been accepted there is one link to each of them, made of the first of the
connections that joins as it. Every other connection that was taken left the links as they were.
The last that was taken is one that was needed; none after it was looked at, and of one that is its
whole group none at all. One note was made of each, besides those at the start and at the end. -/
theorem members_are_bound {connections : List Incoming} {c : Communicator} {notes : List LogEntry}
    (accepted : acceptMembers size timeout address peer connections = (.ok c, notes)) :
    ∃ taken unread, connections = taken ++ unread ∧
      c = ⟨.coordinator, size, .hub (bound size taken)⟩ ∧
      (bound size taken).map Link.peer = Rank.members size ∧
      (∀ rank ∈ Rank.members size, ∃ before connection after,
        taken = before ++ connection :: after ∧ connection.joins rank = true ∧
        (∀ other ∈ before, other.joins rank = false) ∧
        c.topology.link? rank = some (connection.link rank)) ∧
      (∀ before connection after, taken = before ++ connection :: after →
        Passage size peer before connection) ∧
      (∀ before last, taken = before ++ [last] → ∃ rank ∈ Rank.members size,
        last.joins rank = true ∧ ∀ other ∈ before, other.joins rank = false) ∧
      (∀ others, acceptMembers size timeout address peer (taken ++ others) = (.ok c, notes)) ∧
      notes.length = taken.length + 2 ∧ (size ≤ 1 → taken = []) := by
  obtain ⟨taken, unread, rfl, goes, complete, timely⟩ := accepted_taken (congrArg Prod.fst accepted)
  obtain ⟨made, count, same⟩ := acceptMembers_complete timely goes complete
  obtain ⟨result, rfl⟩ := Prod.mk.inj ((same unread).symm.trans accepted)
  obtain rfl := Except.ok.inj result
  refine ⟨taken, unread, rfl, rfl, complete.peers, fun rank among => complete.bound_first among,
    fun before connection after split => goes.passage peer split, fun before last split => ?_, same,
    count, fun few => ?_⟩
  · obtain ⟨rank, among, absent⟩ := (goes.passage peer split).missing
    obtain ⟨connection, hm, joins⟩ := complete rank among
    rw [split] at hm
    rcases List.mem_append.mp hm with early | hm
    · cases joins.symm.trans (absent connection early)
    · obtain rfl := List.mem_singleton.mp hm
      exact ⟨rank, among, joins, absent⟩
  · cases taken with
    | nil => rfl
    | cons connection after =>
      obtain ⟨rank, among, -⟩ := (goes.passage peer (List.nil_append _).symm).missing
      have bounds := Rank.mem_members.mp among
      have := UInt32.le_iff_toNat_le.mp few
      rw [show (1 : UInt32).toNat = 1 from rfl] at this
      omega

/-- Somebody who goes away, a second and a third member, who comes twice, then the coordinator's
rank and a message; when the first member comes nobody is missing, and the last one is not read. -/
def callers : List Incoming :=
  [⟨⟨[], [1, 2]⟩, true⟩, ⟨⟨[.frame (.join ⟨2⟩), .frame .barrierEnter], []⟩, false⟩,
    ⟨⟨[.frame (.join ⟨2⟩)], []⟩, false⟩, ⟨⟨[.frame (.join ⟨0⟩)], []⟩, false⟩,
    ⟨⟨[.frame (.data 7 [1])], []⟩, true⟩, ⟨⟨[.frame (.join ⟨1⟩)], [9]⟩, false⟩,
    ⟨⟨[.fault (Frame.tooLarge 4294967295)], []⟩, false⟩]

theorem members_are_bound_three : ∃ notes taken unread,
    acceptMembers 3 (.ofSeconds 1) "" "" callers = (.ok ⟨.coordinator, 3, .hub
      [⟨⟨1⟩, true, [], ⟨[], [9]⟩⟩, ⟨⟨2⟩, true, [], ⟨[.frame .barrierEnter], []⟩⟩]⟩, notes) ∧
    callers = taken ++ unread ∧ notes.length = taken.length + 2 ∧ taken.length = 6 := by
  have accepted : acceptMembers 3 (.ofSeconds 1) "" "" callers = (.ok ⟨.coordinator, 3, .hub
      [⟨⟨1⟩, true, [], ⟨[], [9]⟩⟩, ⟨⟨2⟩, true, [], ⟨[.frame .barrierEnter], []⟩⟩]⟩,
      (acceptMembers 3 (.ofSeconds 1) "" "" callers).2) := Prod.ext rfl rfl
  obtain ⟨taken, unread, split, -, -, -, -, -, -, count, -⟩ := members_are_bound accepted
  have eight : (acceptMembers 3 (.ofSeconds 1) "" "" callers).2.length = 8 := rfl
  exact ⟨_, taken, unread, accepted, split, count, by omega⟩

theorem complete_of_readable {past : List Incoming}
    (readable : ∀ connection ∈ past, connection.IsReadable) (complete : Complete size past) :
    ∃ taken rest, past = taken ++ rest ∧ Accepted size taken ∧ Complete size taken := by
  obtain ⟨taken, rest, rfl, accepted, all | rfl | ⟨stray, later, rfl, unreadable⟩⟩ :=
    accepts_until size past
  · exact ⟨taken, rest, rfl, accepted, all⟩
  · exact ⟨taken, [], rfl, accepted, by rwa [List.append_nil] at complete⟩
  · exact absurd (readable stray (List.mem_append_right taken List.mem_cons_self)) unreadable

end Bootstrap

namespace Incoming
open Wire

def sending (bytes : List UInt8) (closed : Bool) : Incoming := ⟨Inbox.empty.push bytes, closed⟩

/-- What the first read of bytes gives: too few of them are waited for unless the connection was
closed. -/
def reading (bytes : List UInt8) (closed : Bool) : Option (Except ComponentError (Option Frame)) :=
  let length := ofLittleEndian (bytes.take 4)
  let cut := if closed then some (.ok none) else none
  if bytes.length < 4 then cut
  else if length > 1048576 then some (.error (.protocol s!"Frame too large: {length} bytes"))
  else if bytes.length < 4 + length then cut
  else some (Frame.decoded ((bytes.drop 4).take length))

theorem first_sending (bytes : List UInt8) (closed : Bool) :
    (sending bytes closed).first? = reading bytes closed := by
  have arrivals : (sending bytes closed).inbox.arrivals = (Arrival.cut bytes).1 := rfl
  unfold first? reading
  rw [arrivals, Arrival.cut, Arrival.next?]
  by_cases short : bytes.length < 4
  · simp only [short, dif_pos, if_true]
    rfl
  · simp only [short, dif_neg, not_false_iff, if_false]
    rw [Frame.maxLength_eq]
    by_cases large : ofLittleEndian (bytes.take 4) > 1048576
    · simp only [large, if_true]
      rfl
    · simp only [large, if_false]
      by_cases part : bytes.length < 4 + ofLittleEndian (bytes.take 4)
      · simp only [part, if_true]
        rfl
      · simp only [part, if_false, Arrival.ofBody, Frame.decoded_eq]
        cases Frame.ofBody ((bytes.drop 4).take (ofLittleEndian (bytes.take 4))) <;> rfl

end Incoming

namespace Bootstrap

variable {size : UInt32} {timeout : Duration}

/-- Of accepting members with time enough. It succeeds, with all of them, just when each of them
joins among connections at the beginning that can all be read: a stray that sends another frame, or
is closed before a whole one, is rejected. A stray that comes while somebody is missing and that
fails to be read ends the bootstrap with that failure, whoever would join later, and one of which
there is nothing to read lasts until the time is over. -/
theorem readable_strays_are_rejected (timely : timeout.isZero = false) (address peer : String)
    (connections : List Incoming) :
    (∀ c, (acceptMembers size timeout address peer connections).1 = .ok c →
      ∃ past later, connections = past ++ later ∧ Complete size past ∧
        ∀ connection ∈ past, connection.IsReadable) ∧
    (∀ past later, connections = past ++ later → Complete size past →
      (∀ connection ∈ past, connection.IsReadable) →
      ∃ links, (acceptMembers size timeout address peer connections).1 =
        .ok ⟨.coordinator, size, .hub links⟩ ∧ links.map Link.peer = Rank.members size) ∧
    (∀ past stray later, connections = past ++ stray :: later → ¬Complete size past →
      (∀ connection ∈ past, connection.IsReadable) →
      (∀ error, stray.first? = some (.error error) →
        (acceptMembers size timeout address peer connections).1 = .error (.component error)) ∧
      (stray.first? = none →
        (acceptMembers size timeout address peer connections).1 =
          .error (expiry address timeout))) ∧
    ∀ bytes closed, (Incoming.sending bytes closed).first? = Incoming.reading bytes closed := by
  refine ⟨fun c ok => ?_, fun past later split complete readable => ?_,
    fun past stray later split missing readable => ?_, Incoming.first_sending⟩
  · obtain ⟨taken, unread, split, accepted, complete, -⟩ := accepted_taken ok
    exact ⟨taken, unread, split, complete, accepted.readable⟩
  · obtain ⟨taken, rest, rfl, accepted, complete⟩ := complete_of_readable readable complete
    have zero : timeout.isZero = true → taken = [] := fun zero => by cases timely.symm.trans zero
    obtain ⟨notes, -, same⟩ := acceptMembers_complete zero accepted complete
    rw [split, List.append_assoc, same]
    exact ⟨bound size taken, rfl, complete.peers⟩
  · subst split
    have accepted := Accepted.of_missing readable missing
    exact ⟨fun error failed => acceptMembers_failed timely accepted missing failed later,
      fun silent => acceptMembers_waits timely accepted missing silent later⟩

def strayed : List Incoming :=
  [Incoming.sending [8, 0, 0, 0, 1] true, ⟨⟨[.frame .barrierEnter], []⟩, false⟩,
    ⟨⟨[.frame (.join ⟨1⟩)], []⟩, false⟩]

theorem readable_strays_are_rejected_two : ∃ links,
    (acceptMembers 2 (.ofSeconds 1) "" "" strayed).1 = .ok ⟨.coordinator, 2, .hub links⟩ ∧
      links.map Link.peer = Rank.members 2 := by
  obtain ⟨-, succeeds, -⟩ :=
    @readable_strays_are_rejected 2 (.ofSeconds 1) rfl "" "" strayed
  have complete : Complete 2 strayed := by
    intro rank among
    obtain rfl := List.mem_singleton.mp (show rank ∈ [⟨1⟩] from among)
    exact ⟨⟨⟨[.frame (.join ⟨1⟩)], []⟩, false⟩, by simp [strayed], rfl⟩
  have cut : (Incoming.sending [8, 0, 0, 0, 1] true).first? = some (.ok none) :=
    Incoming.first_sending _ _
  refine succeeds strayed [] (List.append_nil _).symm complete ?_
  simp only [strayed, List.forall_mem_cons]
  exact ⟨⟨_, cut⟩, ⟨_, rfl⟩, ⟨_, rfl⟩, List.forall_mem_nil _⟩

/-- Somebody announces a frame that is too large and goes away, and then the only member joins. -/
def garbled : List Incoming :=
  [Incoming.sending [255, 255, 255, 255] true, ⟨⟨[.frame (.join ⟨1⟩)], []⟩, false⟩]

theorem garbled_stray_ends_the_bootstrap : Complete 2 garbled ∧
    (acceptMembers 2 (.ofSeconds 1) "" "" garbled).1 =
      .error (.component (.protocol "Frame too large: 4294967295 bytes")) := by
  have complete : Complete 2 garbled := by
    intro rank among
    obtain rfl := List.mem_singleton.mp (show rank ∈ [⟨1⟩] from among)
    exact ⟨⟨⟨[.frame (.join ⟨1⟩)], []⟩, false⟩, by simp [garbled], rfl⟩
  have failed : (Incoming.sending [255, 255, 255, 255] true).first? =
      some (.error (.protocol "Frame too large: 4294967295 bytes")) := Incoming.first_sending _ _
  have missing : ¬Complete 2 [] := fun all => by
    obtain ⟨_, hm, -⟩ := all ⟨1⟩ (by decide)
    cases hm
  exact ⟨complete, acceptMembers_failed rfl (.nil 2) missing failed _⟩

end Bootstrap
end FaultDrill
