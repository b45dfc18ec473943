import FaultDrill.Proofs.Execution
set_option autoImplicit false

/-!
# What connections keep

Whatever programs the participants run, each class of frames comes out of a connection in the
order in which it went in. As long as the receiving end is open everything that was sent is
accounted for: it has been taken, is kept, or has arrived. Once that end is closed what can still
be taken is a beginning of what was sent.
-/
namespace FaultDrill

theorem Wanted.accepts_unique {one other : Wanted} {frame : Frame} (h : one.accepts frame = true)
    (h' : other.accepts frame = true) : one = other := by
  cases one <;> cases other <;> cases frame <;> simp_all [Wanted.accepts]

theorem Wanted.filter_refused {wanted : Wanted} {frames : List Frame}
    (refused : ∀ frame ∈ frames, wanted.accepts frame = false) :
    frames.filter wanted.accepts = [] :=
  List.filter_eq_nil_iff.mpr fun frame hm => by simp [refused frame hm]

theorem Wanted.filter_past {wanted : Wanted} {found : Frame} {before : List Frame}
    (accepted : wanted.accepts found = true)
    (passed : ∀ frame ∈ before, wanted.accepts frame = false) (other : Wanted) :
    (found :: before).filter other.accepts = (before ++ [found]).filter other.accepts := by
  rw [List.filter_append]
  by_cases h : other.accepts found = true
  · obtain rfl := accepts_unique accepted h
    simp [h, filter_refused passed]
  · simp [h]

theorem Wanted.filter_taken {wanted : Wanted} {found : Frame} {before : List Frame}
    (accepted : wanted.accepts found = true)
    (passed : ∀ frame ∈ before, wanted.accepts frame = false) (other : Wanted)
    (taken after : List Frame) :
    ((taken ++ [found]) ++ (before ++ after)).filter other.accepts =
      (taken ++ (before ++ found :: after)).filter other.accepts := by
  have hp := filter_past accepted passed other
  calc ((taken ++ [found]) ++ (before ++ after)).filter other.accepts
      = taken.filter other.accepts ++ (found :: before).filter other.accepts ++
          after.filter other.accepts := by
        rw [← List.filter_append, ← List.filter_append]
        simp
    _ = (taken ++ (before ++ found :: after)).filter other.accepts := by
        rw [hp, ← List.filter_append, ← List.filter_append]
        simp

namespace Link

/-- What was sent to this end, what was taken from it and what has arrived at it fit together. -/
structure Faithful (link : Link) (sent taken arrived : List Frame) : Prop where
  holds : link.Holds arrived
  ordered : ∀ wanted : Wanted, (taken ++ link.pending ++ arrived).filter wanted.accepts <+:
    sent.filter wanted.accepts
  complete : link.live = true → ∀ wanted : Wanted,
    (taken ++ link.pending ++ arrived).filter wanted.accepts = sent.filter wanted.accepts

namespace Faithful

variable {link own : Link} {sent taken arrived : List Frame}

theorem opened (peer : Rank) : (Link.opened peer).Faithful [] [] [] :=
  ⟨rfl, fun _ => List.prefix_rfl, fun _ _ => rfl⟩

theorem close (h : link.Faithful sent taken arrived) : link.close.Faithful sent taken [] := by
  refine ⟨rfl, fun wanted => ?_, fun live => nomatch live⟩
  refine List.IsPrefix.trans ?_ (h.ordered wanted)
  rw [List.append_nil]
  exact (List.prefix_append _ _).filter _

theorem failReading (h : link.Faithful sent taken arrived) (kind : FaultKind) :
    ∃ arrived', (link.failReading kind).2.Faithful sent taken arrived' := by
  unfold Link.failReading
  split
  · exact ⟨[], h.close⟩
  · exact ⟨arrived, h⟩

theorem regroup (h : link.Faithful sent taken arrived) {wanted : Wanted} {found : Frame}
    {before after arrived' : List Frame} {own : Link} (accepted : wanted.accepts found = true)
    (passed : ∀ frame ∈ before, wanted.accepts frame = false)
    (split : link.pending ++ arrived = before ++ found :: after)
    (left : own.pending ++ arrived' = before ++ after) (live : own.live = link.live)
    (holds : own.Holds arrived') : own.Faithful sent (taken ++ [found]) arrived' := by
  have same : ∀ other : Wanted,
      ((taken ++ [found]) ++ own.pending ++ arrived').filter other.accepts =
        (taken ++ link.pending ++ arrived).filter other.accepts := by
    intro other
    rw [List.append_assoc, left, Wanted.filter_taken accepted passed other, ← split,
      List.append_assoc]
  refine ⟨holds, fun other => ?_, fun hl other => ?_⟩
  · rw [same]
    exact h.ordered other
  · rw [same]
    exact h.complete (live ▸ hl) other

theorem takes (h : link.Faithful sent taken arrived) {wanted : Wanted} {ended : Bool}
    {breakdown : Option FaultKind} {answer : Option Taken}
    (ht : link.Takes wanted.accepts ended breakdown arrived answer own) :
    ∃ arrived', own.Faithful sent (taken ++ answer.elim [] Taken.frames) arrived' := by
  cases ht with
  | @kept before after found split accepted passed =>
    have split' : link.pending ++ arrived = before ++ found :: (after ++ arrived) := by
      rw [split, List.append_assoc, List.cons_append]
    exact ⟨arrived, h.regroup accepted passed split' (List.append_assoc ..) rfl h.holds⟩
  | dead => exact ⟨arrived, by simpa [Taken.frames] using h⟩
  | @broken kind =>
    obtain ⟨arrived', h'⟩ := h.failReading kind
    refine ⟨arrived', ?_⟩
    rwa [Option.elim_some, failReading_frames, List.append_nil]
  | @arrived before after found refused live sound split accepted passed =>
    have refused' : ∀ frame ∈ link.pending ++ before, wanted.accepts frame = false := by
      intro frame hm
      rcases List.mem_append.mp hm with hm | hm
      · exact refused frame hm
      · exact passed frame hm
    have split' : link.pending ++ arrived = (link.pending ++ before) ++ found :: after := by
      rw [split, List.append_assoc]
    exact ⟨after, h.regroup accepted refused' split' rfl rfl rfl⟩
  | ended refused live sound finished =>
    refine ⟨[], rfl, fun other => ?_, fun live => by cases live⟩
    simpa [Taken.frames, List.append_assoc] using h.ordered other
  | waiting refused live sound going =>
    refine ⟨[], rfl, fun other => ?_, fun live other => ?_⟩
    · simpa [Taken.frames, List.append_assoc] using h.ordered other
    · simpa [Taken.frames, List.append_assoc] using h.complete live other

theorem sends (h : link.Faithful sent taken arrived) {frame : Frame} {reception : Reception}
    {result : Sent} {carried : Option (List UInt8)}
    (hs : link.Sends frame reception result own carried) :
    ∃ arrived', own.Faithful sent taken arrived' := by
  cases hs with
  | lost => exact ⟨[], h.close⟩
  | dead | oversized | delivered | broken => exact ⟨arrived, h⟩

theorem packet (h : link.Faithful sent taken arrived) {frame : Frame} {bytes : List UInt8}
    (fits : frame.packet = .ok bytes) (whole : link.live = true → link.inbox.tail = []) :
    (∃ arrived', (link.receive bytes).Faithful (sent ++ [frame]) taken arrived') ∧
      ((link.receive bytes).live = true → (link.receive bytes).inbox.tail = []) := by
  cases live : link.live with
  | false =>
    rw [receive_dead live]
    refine ⟨⟨arrived, h.holds, fun other => ?_, fun hl => ?_⟩, fun hl => ?_⟩
    · exact (h.ordered other).trans ((List.prefix_append _ _).filter _)
    · rw [live] at hl
      cases hl
    · rw [live] at hl
      cases hl
  | true =>
    obtain ⟨holds, tail⟩ := receive_packet fits live h.holds (whole live)
    have same : ∀ other : Wanted,
        (taken ++ (link.receive bytes).pending ++ (arrived ++ [frame])).filter other.accepts =
          (sent ++ [frame]).filter other.accepts := by
      intro other
      rw [receive_pending, ← List.append_assoc, List.filter_append, h.complete live other,
        List.filter_append]
    exact ⟨⟨arrived ++ [frame], holds, fun other => same other ▸ List.prefix_rfl,
      fun _ => same⟩, fun _ => tail⟩

theorem part (h : link.Faithful sent taken arrived) {frame : Frame} {bytes : List UInt8}
    (fits : frame.packet = .ok bytes) {written : Nat} (part : written < bytes.length)
    (whole : link.live = true → link.inbox.tail = []) :
    (link.receive (bytes.take written)).Faithful sent taken arrived := by
  refine ⟨receive_part fits written part h.holds whole, fun other => ?_, fun live other => ?_⟩
  · rw [receive_pending]
    exact h.ordered other
  · rw [receive_live] at live
    rw [receive_pending]
    exact h.complete live other

end Faithful
end Link
end FaultDrill

namespace FaultDrill.Network

variable {α : Type} {size : UInt32} {steps : List (Step α)} {step : Step α} {net net' : Network α}

/-- Every end of a connection agrees with what was sent to it and taken from it. -/
structure Fidelity (size : UInt32) (steps : List (Step α)) (net : Network α) : Prop where
  star : IsStar size net
  faithful : ∀ a b link, net.end? a b = some link →
    ∃ arrived, link.Faithful (sent steps b a) (taken steps a b) arrived
  whole : ∀ a b link, net.end? a b = some link → link.live = true → net.isOpen b a = true →
    link.inbox.tail = []

namespace Fidelity

theorem start {program : Rank → Program Action.interface α} (h : Starts size program net) :
    Fidelity size [] net := by
  refine ⟨h.star, fun a b link hl => ⟨[], ?_⟩, fun a b link hl _ _ => ?_⟩
  · rw [h.ends a b link hl]
    exact .opened b
  · rw [h.ends a b link hl]
    rfl

theorem ne_of_end (h : Fidelity size steps net) {a b : Rank} {link : Link}
    (hl : net.end? a b = some link) : a ≠ b := by
  obtain ⟨ha, hb⟩ := h.star.mem_of_end hl
  exact (Rank.peers_symm ha hb).2.2

theorem still (h : Fidelity size steps net) (silent : Silent steps step)
    (star : IsStar size net') (ends : net'.end? = net.end?) :
    Fidelity size (steps ++ [step]) net' := by
  refine ⟨star, fun a b link hl => ?_, fun a b link hl live opened => ?_⟩
  · rw [(silent b a).1, (silent a b).2]
    rw [ends] at hl
    exact h.faithful a b link hl
  · rw [isOpen, ends] at opened
    rw [ends] at hl
    exact h.whole a b link hl live opened

theorem closing (h : Fidelity size steps net) (who : Rank) (silent : Silent steps step)
    (star : IsStar size net') (ends : net'.end? = (net.hangUp who).end?) :
    Fidelity size (steps ++ [step]) net' := by
  refine ⟨star, fun a b link hl => ?_, fun a b link hl live opened => ?_⟩
  · rw [(silent b a).1, (silent a b).2]
    rw [ends, end_hangUp] at hl
    split at hl
    · obtain ⟨old, ho, rfl⟩ := Option.map_eq_some_iff.mp hl
      obtain ⟨arrived, hf⟩ := h.faithful a b old ho
      exact ⟨[], hf.close⟩
    · exact h.faithful a b link hl
  · obtain ⟨other, hother, otherLive⟩ := end_of_isOpen opened
    rw [ends, end_hangUp] at hl hother
    split at hl
    · obtain ⟨old, ho, rfl⟩ := Option.map_eq_some_iff.mp hl
      cases live
    · split at hother
      · obtain ⟨old, ho, rfl⟩ := Option.map_eq_some_iff.mp hother
        cases otherLive
      · refine h.whole a b link hl live ?_
        rw [isOpen_of_end hother]
        exact otherLive

theorem whole_moves (h : Fidelity size steps net) {who peer : Rank} {link own : Link}
    {carried : Option (List UInt8)} (has : net.end? who peer = some link)
    (moves : net.Moves who peer own carried net')
    (kept : own.live = true → link.live = true ∧ own.inbox.tail = link.inbox.tail)
    (got : ∀ old, net.end? peer who = some old → link.live = true → old.live = true →
      (old.gain carried).inbox.tail = []) (a b : Rank) (link' : Link)
    (hl : net'.end? a b = some link') (live : link'.live = true)
    (opened : net'.isOpen b a = true) : link'.inbox.tail = [] := by
  have hne := h.ne_of_end has
  refine moves.forall_end hne (P := fun a b link' => link'.live = true →
    net'.isOpen b a = true → link'.inbox.tail = []) ?_ ?_ ?_ a b link' hl live opened
  · intro live opened
    rw [moves.isOpen_peer hne] at opened
    rw [(kept live).2]
    exact h.whole who peer link has (kept live).1 opened
  · intro old ho live opened
    rw [moves.isOpen_own] at opened
    rw [Link.gain_live] at live
    exact got old ho (kept opened).1 live
  · intro a b link' hab hba hl live opened
    rw [moves.isOpen_other (fun h' => hba h'.symm) fun h' => hab h'.symm] at opened
    exact h.whole a b link' hl live opened

theorem send (h : Fidelity size steps net) {peer : Rank} {frame : Frame} {reception : Reception}
    {link own : Link} {result : Sent} {carried : Option (List UInt8)}
    (answered : step.answered? = some ⟨.send peer frame, result⟩)
    (has : net.end? step.move.who peer = some link)
    (sends : link.Sends frame reception result own carried)
    (moves : net.Moves step.move.who peer own carried net') :
    Fidelity size (steps ++ [step]) net' := by
  have hne := h.ne_of_end has
  have hsent : ∀ a b, sent (steps ++ [step]) a b = sent steps a b ++
      if step.move.who = a ∧ peer = b ∧ result = .delivered then [frame] else [] :=
    sent_send answered
  have htaken : ∀ a b, taken (steps ++ [step]) a b = taken steps a b := fun a b =>
    taken_other (fun wanted taken' ht => by rw [answered] at ht; cases ht) a
  refine ⟨h.star.alike moves.alike, moves.forall_end hne ?_ ?_ ?_, ?_⟩
  · obtain ⟨arrived, hf⟩ := h.faithful _ _ link has
    rw [htaken, hsent, if_neg fun h' => hne h'.1, List.append_nil]
    exact hf.sends sends
  · intro old ho
    obtain ⟨arrived, hf⟩ := h.faithful _ _ old ho
    rw [htaken, hsent]
    cases sends with
    | delivered live fits accepted =>
      simp only [and_self, if_true]
      exact (hf.packet fits fun oldLive =>
        h.whole _ _ old ho oldLive (isOpen_of_end has ▸ live)).1
    | dead | oversized | lost | broken =>
      simp only [reduceCtorEq, and_false, if_false, List.append_nil]
      exact ⟨arrived, hf⟩
  · intro a b link' hab hba hl
    rw [htaken, hsent, if_neg fun h' => hba ⟨h'.2.1.symm, h'.1.symm⟩, List.append_nil]
    exact h.faithful a b link' hl
  · refine h.whole_moves has moves (fun live => ?_) fun old ho live oldLive => ?_
    · obtain rfl := sends.live_eq live
      exact ⟨live, rfl⟩
    · have tail := h.whole _ _ old ho oldLive (isOpen_of_end has ▸ live)
      cases sends with
      | delivered live' fits accepted =>
        obtain ⟨arrived, hf⟩ := h.faithful _ _ old ho
        exact (hf.packet fits fun _ => tail).2 ((Link.receive_live _ _).trans oldLive)
      | dead | oversized | lost | broken => exact tail

theorem take (h : Fidelity size steps net) {peer : Rank} {wanted : Wanted} {ended : Bool}
    {breakdown : Option FaultKind} {link own : Link} {arrived : List Frame}
    {answer : Option Taken}
    (answered : step.answered? = answer.map (Sigma.mk (Exchange.take peer wanted)))
    (has : net.end? step.move.who peer = some link)
    (holds : link.Holds arrived)
    (takes : link.Takes wanted.accepts ended breakdown arrived answer own)
    (moves : net.Moves step.move.who peer own none net') :
    Fidelity size (steps ++ [step]) net' := by
  have hne := h.ne_of_end has
  have hsent : ∀ a b, sent (steps ++ [step]) a b = sent steps a b := fun a b =>
    sent_other (fun frame result hs => by rw [answered] at hs; cases answer <;> cases hs) a
  have htaken : ∀ a b, taken (steps ++ [step]) a b = taken steps a b ++
      if step.move.who = a ∧ peer = b then answer.elim [] Taken.frames else [] := by
    intro a b
    cases answer with
    | none => simpa using (silent_none answered a b).2
    | some taken' => exact taken_take answered a b
  refine ⟨h.star.alike moves.alike, moves.forall_end hne ?_ ?_ ?_, ?_⟩
  · obtain ⟨arrived', hf⟩ := h.faithful _ _ link has
    obtain rfl := hf.holds.unique holds
    rw [hsent, htaken, if_pos ⟨rfl, rfl⟩]
    exact hf.takes takes
  · intro old ho
    rw [hsent, htaken, if_neg fun h' => hne h'.1, List.append_nil]
    exact h.faithful _ _ old ho
  · intro a b link' hab hba hl
    rw [hsent, htaken, if_neg fun h' => hab ⟨h'.1.symm, h'.2.symm⟩, List.append_nil]
    exact h.faithful a b link' hl
  · refine h.whole_moves has moves takes.live_eq fun old ho live oldLive => ?_
    exact h.whole _ _ old ho oldLive (isOpen_of_end has ▸ live)

theorem exchanged (h : Fidelity size steps net) {who : Rank} {choice : Choice}
    {exchange : Exchange} {answer : Option exchange.Answer}
    (comes : net.exchange? who choice exchange = some (answer, net')) :
    net.Exchanged who choice exchange answer net' := by
  obtain ⟨c, hc⟩ : ∃ c, net.communicator? who = some c := by
    obtain ⟨site, hs, -⟩ := Option.bind_eq_some_iff.mp comes
    exact ⟨site.communicator, by rw [communicator?, hs]; rfl⟩
  exact Network.exchanged hc (fun peer link hl => h.ne_of_end hl)
    (fun peer link hl => (h.faithful _ _ link hl).imp fun _ hf => hf.holds) comes

theorem exchange (h : Fidelity size steps net) {who : Rank} {choice : Choice}
    {exchange : Exchange} (answer : Option exchange.Answer) (mover : step.move.who = who)
    (answered : step.answered? = answer.map (Sigma.mk exchange))
    (comes : net.exchange? who choice exchange = some (answer, net')) :
    Fidelity size (steps ++ [step]) net' := by
  subst mover
  cases h.exchanged comes with
  | send has sends moves => exact h.send answered has sends moves
  | take has holds takes _ moves => exact h.take answered has holds takes moves
  | hangUp alike ends =>
    refine h.closing _ (silent fun exchange answer hs => ?_) (h.star.alike alike) ends
    rw [answered] at hs
    cases hs
    exact ⟨nofun, nofun⟩
  | note alike ends =>
    refine h.still (silent fun exchange answer hs => ?_) (h.star.alike alike) ends
    rw [answered] at hs
    cases hs
    exact ⟨nofun, nofun⟩
  | sendNowhere _ alike ends =>
    exact h.still (silent_nowhere (.inl ⟨_, answered⟩)) (h.star.alike alike) ends
  | takeNowhere _ alike ends =>
    exact h.still (silent_nowhere (.inr ⟨_, answered⟩)) (h.star.alike alike) ends

theorem setActivity (h : Fidelity size steps net) (who : Rank) (activity : Activity α) :
    Fidelity size steps (net.setActivity who activity) := by
  refine ⟨h.star.setActivity who activity, fun a b link hl => ?_, fun a b link hl => ?_⟩
  · rw [end_setActivity] at hl
    exact h.faithful a b link hl
  · rw [end_setActivity] at hl
    rw [isOpen, end_setActivity]
    exact h.whole a b link hl

theorem crash (h : Fidelity size steps net) {who : Rank} (written : Nat)
    (silent : Silent steps step) : Fidelity size (steps ++ [step]) (net.crash who written) := by
  obtain ⟨alike, leaves⟩ := carryPart_leaves net who written
  refine setActivity ?_ who (.left none)
  have star : IsStar size ((net.carryPart who written).hangUp who) :=
    h.star.alike (alike.trans (alike_hangUp _ who))
  cases leaves with
  | nothing ends =>
    refine h.closing who silent star ?_
    funext a b
    rw [end_hangUp, end_hangUp, ends]
  | @part peer frame bytes written fits part opened ends =>
    obtain ⟨own, has, -⟩ := end_of_isOpen opened
    have hne := h.ne_of_end has
    refine ⟨star, fun a b link hl => ?_, fun a b link hl live opened' => ?_⟩
    · rw [(silent b a).1, (silent a b).2]
      rw [end_hangUp] at hl
      split at hl
      · rename_i ha
        obtain ⟨old, ho, rfl⟩ := Option.map_eq_some_iff.mp hl
        rw [ends, if_neg fun h' => hne (ha.symm.trans h'.1)] at ho
        obtain ⟨arrived, hf⟩ := h.faithful a b old ho
        exact ⟨[], hf.close⟩
      · rw [ends] at hl
        split at hl
        · rename_i hab
          obtain ⟨rfl, rfl⟩ := hab
          obtain ⟨old, ho, rfl⟩ := Option.map_eq_some_iff.mp hl
          obtain ⟨arrived, hf⟩ := h.faithful a b old ho
          exact ⟨arrived, hf.part fits part fun live => h.whole a b old ho live opened⟩
        · exact h.faithful a b link hl
    · obtain ⟨other, hother, otherLive⟩ := end_of_isOpen opened'
      rw [end_hangUp] at hl hother
      split at hl
      · obtain ⟨old, ho, rfl⟩ := Option.map_eq_some_iff.mp hl
        cases live
      · split at hother
        · obtain ⟨old, ho, rfl⟩ := Option.map_eq_some_iff.mp hother
          cases otherLive
        · rename_i ha hb
          rw [ends, if_neg fun h' => hb h'.2] at hl
          rw [ends, if_neg fun h' => ha h'.2] at hother
          exact h.whole a b link hl live ((isOpen_of_end hother).trans otherLive)

theorem frame (h : Fidelity size steps net) {move : Move} {seen : List Event}
    {answered : Option Answered} (hm : net.Moved move net' seen answered) {who : Rank}
    (hne : who ≠ move.who) : net'.activity? who = net.activity? who ∧
      ∀ peer, net'.isOpen who peer = net.isOpen who peer := by
  have hset : ∀ (after : Network α) (activity : Activity α),
      (after.setActivity move.who activity).activity? who = after.activity? who := by
    intro after activity
    rw [activity_setActivity, if_neg hne]
  have hclose : ∀ (after : Network α) (activity : Activity α) (peer : Rank),
      ((after.hangUp move.who).setActivity move.who activity).isOpen who peer =
        after.isOpen who peer := by
    intro after activity peer
    rw [isOpen_setActivity, isOpen_hangUp, if_neg hne]
  cases hm with
  | proceed proceeds =>
    cases proceeds with
    | start | act | finish => exact ⟨hset net _, fun peer => by rw [isOpen_setActivity]⟩
    | wait _ comes =>
      have hx := h.exchanged comes
      exact ⟨by rw [hx.alike.activity], hx.isOpen_other hne⟩
    | exchange _ comes =>
      have hx := h.exchanged comes
      refine ⟨(hset _ _).trans (by rw [hx.alike.activity]), fun peer => ?_⟩
      rw [isOpen_setActivity]
      exact hx.isOpen_other hne peer
  | leave =>
    exact ⟨(hset _ _).trans (by rw [(alike_hangUp net _).activity]), hclose _ _⟩
  | @crash mover written there =>
    obtain ⟨alike, leaves⟩ := carryPart_leaves net mover written
    refine ⟨(hset _ _).trans (by rw [(alike.trans (alike_hangUp _ _)).activity]), fun peer => ?_⟩
    refine (hclose _ _ peer).trans ?_
    cases leaves with
    | nothing ends => rw [isOpen, isOpen, ends]
    | @part target frame bytes written fits part opened ends =>
      rw [isOpen, isOpen, ends]
      split
      · cases net.end? who peer with
        | none => rfl
        | some old => exact Link.receive_live _ old
      · rfl

theorem isOpen_own (h : Fidelity size steps net) {move : Move} {seen : List Event}
    {answered : Option Answered} (hm : net.Moved move net' seen answered) {peer : Rank}
    (opened : net'.isOpen move.who peer = true) : net.isOpen move.who peer = true := by
  cases hm with
  | proceed proceeds =>
    cases proceeds with
    | start | act | finish => rwa [isOpen_setActivity] at opened
    | wait _ comes => exact (h.exchanged comes).isOpen_own opened
    | exchange _ comes =>
      rw [isOpen_setActivity] at opened
      exact (h.exchanged comes).isOpen_own opened
  | leave =>
    rw [isOpen_setActivity, isOpen_hangUp, Move.who, if_pos rfl] at opened
    cases opened
  | crash =>
    rw [Network.crash, isOpen_setActivity, isOpen_hangUp, Move.who, if_pos rfl] at opened
    cases opened

theorem isOpen_gone (h : Fidelity size steps net) {move : Move} {seen : List Event}
    {peer : Rank} {wanted : Wanted}
    (hm : net.Moved move net' seen (some ⟨.take peer wanted, .gone⟩)) :
    net'.isOpen move.who peer = false := by
  generalize ha : (some ⟨.take peer wanted, .gone⟩ : Option Answered) = answered at hm
  cases hm with
  | proceed proceeds =>
    cases proceeds with
    | exchange _ comes =>
      cases ha
      rw [isOpen, end_setActivity]
      generalize hg : some Taken.gone = answer at comes
      cases h.exchanged comes with
      | take _ _ takes _ moves =>
        subst hg
        exact moves.isOpen_own.trans takes.gone
      | takeNowhere hasNot _ ends =>
        rw [ends, Move.who, hasNot]
        rfl
    | start | act | finish | wait => cases ha
  | leave | crash => cases ha

theorem countP_taken_le (h : Fidelity size steps net) {a b : Rank}
    (ha : a ∈ Rank.everybody size) (hb : b ∈ a.peers size) (wanted : Wanted) :
    (taken steps a b).countP wanted.accepts ≤ (sent steps b a).countP wanted.accepts := by
  obtain ⟨link, hl⟩ := h.star.end_isSome ha hb
  obtain ⟨arrived, hf⟩ := h.faithful a b link hl
  have hle := (hf.ordered wanted).length_le
  rw [← List.countP_eq_length_filter, ← List.countP_eq_length_filter, List.countP_append,
    List.countP_append] at hle
  omega

end Fidelity

/-- Connections lose nothing, add nothing and keep the order within each class. -/
theorem Execution.fidelity {program : Rank → Program Action.interface α} {start : Network α}
    (begins : Bootstrapped size program start) (run : Execution start steps net) :
    Fidelity size steps net := by
  induction run with
  | start => exact .start begins.starts
  | @next steps net net' move seen earlier moves ih =>
    have hm := moved moves
    generalize hans : (Step.mk net move net' seen).answered? = answered at hm
    cases hm with
    | proceed proceeds =>
      cases proceeds with
      | start | act | finish =>
        exact (ih.still (silent_none hans) ih.star rfl).setActivity _ _
      | @wait call exchange rest next after doing comes =>
        exact ih.exchange none rfl hans comes
      | @exchange call exchange rest next answer after doing comes =>
        exact (ih.exchange (some answer) rfl hans comes).setActivity _ _
    | @leave who result doing =>
      have star := ih.star.alike (alike_hangUp net who)
      exact (ih.closing who (silent_none hans) star rfl).setActivity _ _
    | crash => exact ih.crash _ (silent_none hans)

end FaultDrill.Network
