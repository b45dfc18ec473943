import FaultDrill.Proofs.Link
set_option autoImplicit false

/-!
# One queue for each link

A link reads on only when no frame that it has kept will do. Whoever takes from it need not know:
the kept frames and all that is still to come stand in one ordered queue, in which a failure of
reading has its place like a frame, and every wait takes the first entry out that it accepts.
-/
namespace FaultDrill

namespace Arrival

def frames : List Arrival → List Frame
  | .frame first :: rest => first :: frames rest
  | .fault _ :: _ | [] => []

def failure? : List Arrival → Option (ComponentError × List Arrival)
  | .frame _ :: rest => failure? rest
  | .fault error :: rest => some (error, rest)
  | [] => none

def ending : Option (ComponentError × List Arrival) → List Arrival
  | none => []
  | some (error, rest) => .fault error :: rest

theorem eq_frames (entries : List Arrival) :
    entries = (frames entries).map .frame ++ ending (failure? entries) := by
  induction entries with
  | nil => rfl
  | cons entry rest ih =>
    cases entry with
    | frame first => simpa [frames, failure?] using ih
    | fault error => rfl

theorem eq_frames_found {entries : List Arrival} {before after : List Frame} {found : Frame}
    (h : frames entries = before ++ found :: after) :
    ∃ rest, entries = before.map .frame ++ .frame found :: rest ∧ frames rest = after ∧
      failure? rest = failure? entries := by
  induction before generalizing entries with
  | nil =>
    match entries, h with
    | .frame first :: rest, h =>
      obtain ⟨rfl, rfl⟩ := List.cons.inj h
      exact ⟨rest, rfl, rfl, rfl⟩
  | cons other before ih =>
    match entries, h with
    | .frame first :: entries, h =>
      obtain ⟨rfl, htail⟩ := List.cons.inj h
      obtain ⟨rest, rfl, hrest, hfailure⟩ := ih htail
      exact ⟨rest, rfl, hrest, hfailure⟩

end Arrival

/-- Takes the first entry that is an accepted frame, or a failure, out of a queue; the others keep
their order. -/
def serve (accept : Frame → Bool) : List Arrival → Taken × List Arrival
  | [] => (.gone, [])
  | .fault error :: rest => (.failed error, rest)
  | .frame first :: rest =>
    if accept first then (.frame first, rest)
    else ((serve accept rest).1, .frame first :: (serve accept rest).2)

def serveEach : List (Frame → Bool) → List Arrival → List Taken × List Arrival
  | [], entries => ([], entries)
  | accept :: later, entries =>
    let (taken, entries) := serve accept entries
    let (others, entries) := serveEach later entries
    (taken :: others, entries)

section Serve

variable {accept : Frame → Bool} {before : List Frame}
  (passed : ∀ frame ∈ before, accept frame = false)
include passed

theorem serve_refused (entries : List Arrival) :
    serve accept (before.map .frame ++ entries) =
      ((serve accept entries).1, before.map .frame ++ (serve accept entries).2) := by
  induction before with
  | nil => rfl
  | cons first before ih =>
    obtain ⟨refused, others⟩ := List.forall_mem_cons.mp passed
    rw [List.map_cons, List.cons_append, serve, if_neg (by simp [refused]), ih others]
    rfl

theorem serve_accepted {found : Frame} (accepted : accept found = true) (after : List Arrival) :
    serve accept (before.map .frame ++ .frame found :: after) =
      (.frame found, before.map .frame ++ after) := by
  rw [serve_refused passed, serve, if_pos accepted]

end Serve

namespace Link

/-- What is still to be read, as long as this end is open. -/
def incoming (link : Link) : List Arrival := if link.live then link.inbox.arrivals else []

/-- The frames that can be had before reading ends or first fails: those that were kept, and those
that are still to be read. -/
def queue (link : Link) : List Frame := link.pending ++ Arrival.frames link.incoming

def failure? (link : Link) : Option (ComponentError × List Arrival) :=
  Arrival.failure? link.incoming

/-- The kept frames and everything that is still to be read. -/
def entries (link : Link) : List Arrival := link.pending.map .frame ++ link.incoming

/-- The link once all the frames that have arrived are kept. -/
def stored (link : Link) : Link :=
  { link with pending := link.queue, inbox := ⟨[], link.inbox.tail⟩ }

def takeEach : List (Frame → Bool) → Link → List (Option Taken) × Link
  | [], link => ([], link)
  | accept :: later, link =>
    let (taken, link) := link.take accept true none
    let (others, link) := takeEach later link
    (taken :: others, link)

theorem incoming_live {link : Link} (live : link.live = true) :
    link.incoming = link.inbox.arrivals := if_pos live

theorem incoming_dead {link : Link} (dead : link.live = false) : link.incoming = [] := by
  simp [incoming, dead]

variable {link : Link} {accept : Frame → Bool}

theorem failing_live {reason : ComponentError × List Arrival} (h : link.failure? = some reason) :
    link.live = true := by
  cases dead : link.live with
  | true => rfl
  | false => simp [failure?, incoming_dead dead, Arrival.failure?] at h

theorem removeFirst_refused {frames : List Frame}
    (refused : ∀ frame ∈ frames, accept frame = false) : removeFirst? accept frames = none := by
  induction frames with
  | nil => rfl
  | cons first frames ih =>
    obtain ⟨here, others⟩ := List.forall_mem_cons.mp refused
    simp [removeFirst?, here, ih others]

theorem take_kept {found : Frame} {others : List Frame}
    (kept : removeFirst? accept link.pending = some (found, others)) (ended : Bool)
    (breakdown : Option FaultKind) :
    link.take accept ended breakdown =
      (some (.frame found), { link with pending := others }) := by
  unfold take
  rw [kept]

section Unkept

variable (unkept : removeFirst? accept link.pending = none)
include unkept

theorem take_dead (dead : link.live = false) (ended : Bool) (breakdown : Option FaultKind) :
    link.take accept ended breakdown = (some .gone, link) := by
  unfold take
  rw [unkept]
  simp [dead]

theorem take_reads (live : link.live = true) (ended : Bool) :
    link.take accept ended none = link.readOn accept ended link.inbox.arrivals := by
  unfold take
  rw [unkept]
  simp [live]

theorem take_breaks (live : link.live = true) (ended : Bool) (kind : FaultKind) :
    link.take accept ended (some kind) =
      if kind.isDisconnect then (some .gone, link.close)
      else (some (.failed (.transfer (.ofKind kind))), link) := by
  unfold take
  rw [unkept]
  by_cases hk : kind.isDisconnect = true <;> simp [live, failReading, hk]

end Unkept

theorem readOn_inbox (ended : Bool) (peer : Rank) (live : Bool) (pending : List Frame)
    (before before' : List Arrival) (tail : List UInt8) (arrivals : List Arrival) :
    readOn accept ended ⟨peer, live, pending, ⟨before, tail⟩⟩ arrivals =
      readOn accept ended ⟨peer, live, pending, ⟨before', tail⟩⟩ arrivals := by
  induction arrivals generalizing pending with
  | nil => rfl
  | cons arrival rest ih =>
    cases arrival with
    | fault error => rfl
    | frame first => simp only [readOn, ih]

theorem take_found (wanted : ∃ frame ∈ link.queue, accept frame = true) (ended : Bool) :
    ∃ before found after own, link.queue = before ++ found :: after ∧ accept found = true ∧
      (∀ frame ∈ before, accept frame = false) ∧
      link.take accept ended none = (some (.frame found), own) ∧
      own.queue = before ++ after ∧ own.failure? = link.failure? ∧ own.live = link.live := by
  cases kept : removeFirst? accept link.pending with
  | some result =>
    obtain ⟨before, after, split, others, accepted, passed⟩ := removeFirst_eq_some kept
    refine ⟨before, result.1, after ++ Arrival.frames link.incoming, _, ?_, accepted, passed,
      take_kept kept ended none, ?_, rfl, rfl⟩
    · rw [queue, split, List.append_assoc, List.cons_append]
    · simp [queue, incoming, others]
  | none =>
    have refused := removeFirst_eq_none kept
    cases coming : removeFirst? accept (Arrival.frames link.incoming) with
    | none =>
      -- Nothing in the queue is accepted then.
      obtain ⟨frame, hm, accepted⟩ := wanted
      have := (List.mem_append.mp hm).elim (refused frame) (removeFirst_eq_none coming frame)
      simp [this] at accepted
    | some result =>
      obtain ⟨before, after, split, -, accepted, passed⟩ := removeFirst_eq_some coming
      have live : link.live = true := by
        cases dead : link.live with
        | true => rfl
        | false => simp [incoming_dead dead, Arrival.frames] at split
      obtain ⟨rest, arrivals, hafter, hfailure⟩ := Arrival.eq_frames_found split
      rw [incoming_live live] at arrivals
      have reads := readOn_accepted passed accepted ended link rest
      rw [← arrivals, ← take_reads kept live] at reads
      refine ⟨link.pending ++ before, result.1, after, _, ?_, accepted, ?_, reads, ?_, ?_, rfl⟩
      · rw [queue, split, List.append_assoc]
      · exact List.forall_mem_append.mpr ⟨refused, passed⟩
      · simp [queue, incoming, live, hafter]
      · simpa [failure?, incoming, live] using hfailure

theorem readOn_peer (ended : Bool) (link : Link) (arrivals : List Arrival) :
    (readOn accept ended link arrivals).2.peer = link.peer := by
  induction arrivals generalizing link with
  | nil => cases ended <;> rfl
  | cons arrival rest ih =>
    cases arrival with
    | fault error => rfl
    | frame first =>
      unfold readOn
      split
      · rfl
      · exact ih _

theorem take_peer (accept : Frame → Bool) (ended : Bool) (breakdown : Option FaultKind)
    (link : Link) : (link.take accept ended breakdown).2.peer = link.peer := by
  cases unkept : removeFirst? accept link.pending with
  | some result => rw [take_kept unkept]
  | none =>
    cases live : link.live with
    | false => rw [take_dead unkept live]
    | true =>
      cases breakdown with
      | none => rw [take_reads unkept live, readOn_peer]
      | some kind =>
        rw [take_breaks unkept live]
        split <;> rfl

theorem readOn_live (ended : Bool) (link : Link) (arrivals : List Arrival) :
    (readOn accept ended link arrivals).2.live = link.live ∨
      ended = true ∧ (readOn accept ended link arrivals).1 = some .gone ∧
        ∃ kept, (readOn accept ended link arrivals).2 = (close { link with pending := kept }) := by
  induction arrivals generalizing link with
  | nil =>
    cases ended with
    | true => exact .inr ⟨rfl, rfl, link.pending, rfl⟩
    | false => exact .inl rfl
  | cons arrival rest ih =>
    cases arrival with
    | fault error => exact .inl rfl
    | frame first =>
      unfold readOn
      split
      · exact .inl rfl
      · exact ih { link with pending := link.pending ++ [first] }

theorem take_live (accept : Frame → Bool) (ended : Bool) (breakdown : Option FaultKind)
    (link : Link) : (link.take accept ended breakdown).2.live = link.live ∨
      (breakdown = none ∧ ended = true ∨
        ∃ kind, breakdown = some kind ∧ kind.isDisconnect = true) ∧
      (link.take accept ended breakdown).1 = some .gone ∧
      ∃ kept, (link.take accept ended breakdown).2 = (close { link with pending := kept }) := by
  cases unkept : removeFirst? accept link.pending with
  | some result => exact .inl (by rw [take_kept unkept])
  | none =>
    cases live : link.live with
    | false => exact .inl (by rw [take_dead unkept live, live])
    | true =>
      cases breakdown with
      | none =>
        have reads := @readOn_live accept ended link link.inbox.arrivals
        rw [live] at reads
        rw [take_reads unkept live]
        exact reads.imp_right fun ⟨ends, gone⟩ => ⟨.inl ⟨rfl, ends⟩, gone⟩
      | some kind =>
        rw [take_breaks unkept live ended]
        by_cases disconnect : kind.isDisconnect = true
        · rw [if_pos disconnect]
          exact .inr ⟨.inr ⟨kind, rfl, disconnect⟩, rfl, link.pending, rfl⟩
        · rw [if_neg disconnect]
          exact .inl live

section Refused

variable (refused : ∀ frame ∈ link.queue, accept frame = false)
include refused

theorem kept_refused : removeFirst? accept link.pending = none :=
  removeFirst_refused (List.forall_mem_append.mp refused).1

/-- Past the refused frames of an open end everything is kept, and what comes next is what reading
meets first after them. -/
theorem take_refused (live : link.live = true) (ended : Bool) :
    link.take accept ended none =
      readOn accept ended { link with pending := link.queue } (Arrival.ending link.failure?) := by
  rw [take_reads (kept_refused refused) live, ← incoming_live live,
    Arrival.eq_frames link.incoming, readOn_refused (List.forall_mem_append.mp refused).2]
  rfl

theorem take_finished (finished : link.failure? = none) :
    ∃ own, link.take accept true none = (some .gone, own) ∧ own.live = false ∧
      own.pending = link.queue := by
  cases live : link.live with
  | true =>
    have taken := take_refused refused live true
    rw [finished] at taken
    exact ⟨_, taken, rfl, rfl⟩
  | false =>
    refine ⟨link, take_dead (kept_refused refused) live true none, live, ?_⟩
    simp [queue, incoming_dead live, Arrival.frames]

theorem take_failed {error : ComponentError} {beyond : List Arrival}
    (failing : link.failure? = some (error, beyond)) (ended : Bool) :
    ∃ own, link.take accept ended none = (some (.failed error), own) ∧ own.live = true ∧
      own.pending = link.queue ∧ own.inbox.arrivals = beyond := by
  have live := failing_live failing
  have taken := take_refused refused live ended
  rw [failing] at taken
  exact ⟨_, taken, live, rfl, rfl⟩

theorem take_waiting (live : link.live = true) (sound : link.failure? = none) :
    link.take accept false none = (none, link.stored) := by
  rw [take_refused refused live, sound]
  rfl

theorem take_stored (live : link.live = true) (sound : link.failure? = none)
    (bytes : List UInt8) (ended : Bool) :
    (link.stored.receive bytes).take accept ended none =
      (link.receive bytes).take accept ended none := by
  have arrivals := Arrival.eq_frames link.incoming
  rw [show Arrival.failure? link.incoming = none from sound, Arrival.ending,
    List.append_nil] at arrivals
  rw [take_reads (by simpa [stored] using removeFirst_refused refused)
      (by simpa [stored] using live),
    take_reads (by simpa using kept_refused refused) (by simpa using live)]
  simp only [receive, stored, live, if_true, Inbox.push, List.nil_append]
  rw [← incoming_live live, arrivals, readOn_refused (List.forall_mem_append.mp refused).2]
  exact readOn_inbox ended ..

end Refused

theorem entries_eq (link : Link) :
    link.entries = link.queue.map .frame ++ Arrival.ending link.failure? := by
  rw [entries, queue, failure?, List.map_append, List.append_assoc, ← Arrival.eq_frames]

theorem take_serves (accept : Frame → Bool) (link : Link) :
    (link.take accept true none).1 = some (serve accept link.entries).1 ∧
      (link.take accept true none).2.entries = (serve accept link.entries).2 ∧
      ((link.take accept true none).2.live = true ↔
        link.live = true ∧ (serve accept link.entries).1 ≠ .gone) := by
  by_cases wanted : ∃ frame ∈ link.queue, accept frame = true
  · obtain ⟨before, found, after, own, split, accepted, passed, taken, hqueue, hfailure, hlive⟩ :=
      take_found wanted true
    rw [entries_eq, split, List.map_append, List.map_cons, List.append_assoc, List.cons_append,
      serve_accepted passed accepted, taken]
    refine ⟨rfl, ?_, by simp [hlive]⟩
    rw [entries_eq, hqueue, hfailure, List.map_append, List.append_assoc]
  · have refused : ∀ frame ∈ link.queue, accept frame = false := by simpa using wanted
    rw [entries_eq, serve_refused refused]
    cases ends : link.failure? with
    | none =>
      obtain ⟨own, taken, dead, kept⟩ := take_finished refused ends
      simp [taken, Arrival.ending, serve, dead, entries, kept, incoming_dead dead]
    | some result =>
      obtain ⟨own, taken, live, kept, beyond⟩ := take_failed refused ends true
      simp [taken, Arrival.ending, serve, live, entries, kept, incoming_live live, beyond,
        failing_live ends]

theorem takeEach_serves (accepts : List (Frame → Bool)) (link : Link) :
    (takeEach accepts link).1 = (serveEach accepts link.entries).1.map some ∧
      (takeEach accepts link).2.entries = (serveEach accepts link.entries).2 ∧
      ((takeEach accepts link).2.live = true ↔
        link.live = true ∧ .gone ∉ (serveEach accepts link.entries).1) := by
  induction accepts generalizing link with
  | nil => simp [takeEach, serveEach]
  | cons accept later ih =>
    obtain ⟨taken, hentries, hlive⟩ := take_serves accept link
    obtain ⟨others, hrest, hlater⟩ := ih (link.take accept true none).2
    rw [hentries] at others hrest hlater
    refine ⟨by simp [takeEach, serveEach, taken, others], hrest, hlater.trans ?_⟩
    rw [hlive, and_assoc, serveEach, List.mem_cons, not_or, ne_comm]

/-- Waiting on a link is taking from its queue. The first accepted frame goes and the others stay
in order; when none is accepted all are kept, and the wait is answered by the end of the stream,
which closes this end, or by a failure, which does not. So it is for waits one after the other,
and to have waited while nothing came changes nothing. -/
theorem one_queue (link : Link) :
    (∀ accept : Frame → Bool,
      ((∃ frame ∈ link.queue, accept frame = true) → ∀ ended,
        ∃ before found after own, link.queue = before ++ found :: after ∧ accept found = true ∧
          (∀ frame ∈ before, accept frame = false) ∧
          link.take accept ended none = (some (.frame found), own) ∧
          own.queue = before ++ after ∧ own.failure? = link.failure? ∧ own.live = link.live) ∧
      ((∀ frame ∈ link.queue, accept frame = false) →
        (link.failure? = none →
          ∃ own, link.take accept true none = (some .gone, own) ∧ own.live = false ∧
            own.pending = link.queue) ∧
        (∀ error beyond, link.failure? = some (error, beyond) → ∀ ended,
          ∃ own, link.take accept ended none = (some (.failed error), own) ∧ own.live = true ∧
            own.pending = link.queue ∧ own.inbox.arrivals = beyond) ∧
        (link.live = true → link.failure? = none →
          link.take accept false none = (none, link.stored) ∧
          (∀ bytes ended, (link.stored.receive bytes).take accept ended none =
            (link.receive bytes).take accept ended none) ∧
          ∀ kind, link.stored.take accept false (some kind) =
            if kind.isDisconnect then (some .gone, link.stored.close)
            else (some (.failed (.transfer (.ofKind kind))), link.stored)))) ∧
    ∀ accepts : List (Frame → Bool),
      (takeEach accepts link).1 = (serveEach accepts link.entries).1.map some ∧
        (takeEach accepts link).2.entries = (serveEach accepts link.entries).2 ∧
        ((takeEach accepts link).2.live = true ↔
          link.live = true ∧ .gone ∉ (serveEach accepts link.entries).1) := by
  refine ⟨fun accept => ⟨take_found, fun refused => ⟨take_finished refused, ?_, ?_⟩⟩,
    fun accepts => takeEach_serves accepts link⟩
  · intro error beyond failing ended
    exact take_failed refused failing ended
  · intro live sound
    refine ⟨take_waiting refused live sound, take_stored refused live sound, fun kind => ?_⟩
    have unkept : removeFirst? accept link.stored.pending = none := removeFirst_refused refused
    exact take_breaks unkept live false kind

/-- Member 1 has sent data of tags 1 and 2 and then something that is no frame. -/
def twoTags : Link :=
  ⟨⟨1⟩, true, [.data 1 [10]], ⟨[.frame (.data 2 [20]), .fault (Frame.tooLarge 0)], []⟩⟩

theorem one_queue_twoTags :
    (∃ frame ∈ twoTags.queue, (Wanted.data 2).accepts frame = true) ∧
      (∃ before found after own, twoTags.queue = before ++ found :: after ∧
        (Wanted.data 2).accepts found = true ∧
        (∀ frame ∈ before, (Wanted.data 2).accepts frame = false) ∧
        twoTags.take (Wanted.data 2).accepts true none = (some (.frame found), own) ∧
        own.queue = before ++ after ∧ own.failure? = twoTags.failure? ∧
        own.live = twoTags.live) ∧
      (∀ frame ∈ twoTags.queue, Wanted.broadcast.accepts frame = false) ∧
      (∃ own, twoTags.take Wanted.broadcast.accepts true none =
          (some (.failed (Frame.tooLarge 0)), own) ∧
        own.live = true ∧ own.pending = twoTags.queue ∧ own.inbox.arrivals = []) ∧
      (∀ frame ∈ twoTags.stored.queue, Wanted.broadcast.accepts frame = false) ∧
      ∃ own, twoTags.stored.take Wanted.broadcast.accepts true none = (some .gone, own) ∧
        own.live = false ∧ own.pending = twoTags.stored.queue := by
  have wanted : ∃ frame ∈ twoTags.queue, (Wanted.data 2).accepts frame = true :=
    ⟨.data 2 [20], by decide, by decide⟩
  have refused : ∀ frame ∈ twoTags.queue, Wanted.broadcast.accepts frame = false := by decide
  have quiet : ∀ frame ∈ twoTags.stored.queue, Wanted.broadcast.accepts frame = false := by decide
  exact ⟨wanted, ((one_queue twoTags).1 _).1 wanted true, refused,
    (((one_queue twoTags).1 _).2 refused).2.1 (Frame.tooLarge 0) [] rfl true, quiet,
    (((one_queue twoTags.stored).1 _).2 quiet).1 rfl⟩

end Link
end FaultDrill
