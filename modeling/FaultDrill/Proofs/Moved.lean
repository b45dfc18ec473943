import FaultDrill.Proofs.Network
set_option autoImplicit false

namespace FaultDrill.Network

variable {α : Type}

def endAfter (net : Network α) (who peer : Rank) (own : Link) (carried : Option (List UInt8))
    (a b : Rank) : Option Link :=
  if a = who ∧ b = peer then some own
  else if a = peer ∧ b = who then (net.end? a b).map (Link.gain carried)
  else net.end? a b

/-- An exchange of a participant with another one changes nothing but their connection. -/
structure Moves (net : Network α) (who peer : Rank) (own : Link)
    (carried : Option (List UInt8)) (net' : Network α) : Prop where
  alike : net.Alike net'
  ends : net'.end? = net.endAfter who peer own carried

theorem moves_setCommunicator {net : Network α} {who peer : Rank} {c : Communicator}
    {link own : Link} (hc : net.communicator? who = some c) (hl : net.end? who peer = some link)
    (hp : own.peer = peer) :
    net.Moves who peer own none (net.setCommunicator who (c.setLink own)) := by
  refine ⟨alike_setCommunicator hc own, funext fun a => funext fun b => ?_⟩
  rw [end_setCommunicator hc, endAfter, hp]
  split
  · rename_i hab
    rw [hab.1, hab.2, hl]
    rfl
  · have hid : Link.gain none = id := rfl
    rw [hid, Option.map_id, id, ite_self]

theorem moves_carry {net : Network α} {who peer : Rank} {c : Communicator} {link own : Link}
    {bytes : List UInt8} (hc : net.communicator? who = some c)
    (hl : net.end? who peer = some link) (hp : own.peer = peer) (hne : who ≠ peer) :
    net.Moves who peer own (some bytes)
      ((net.setCommunicator who (c.setLink own)).carry who peer bytes) := by
  have h := moves_setCommunicator hc hl hp
  refine ⟨h.alike.trans (alike_carry _ _ _ _), funext fun a => funext fun b => ?_⟩
  rw [end_carry, h.ends]
  unfold endAfter
  by_cases hab : a = who ∧ b = peer
  · rw [if_neg fun h' => hne (hab.1.symm.trans h'.1), if_pos hab, if_pos hab]
  · have hid : Link.gain none = id := rfl
    rw [if_neg hab, if_neg hab, hid, Option.map_id, id, ite_self]
    rfl

theorem isOpen_of_end {net : Network α} {a b : Rank} {link : Link} (h : net.end? a b = some link) :
    net.isOpen a b = link.live := by
  rw [isOpen, h]
  rfl

theorem end_of_isOpen {net : Network α} {a b : Rank} (h : net.isOpen a b = true) :
    ∃ link, net.end? a b = some link ∧ link.live = true := by
  cases hl : net.end? a b with
  | none =>
    rw [isOpen, hl] at h
    cases h
  | some link =>
    rw [isOpen_of_end hl] at h
    exact ⟨link, rfl, h⟩

namespace Moves

variable {net net' : Network α} {who peer : Rank} {own : Link} {carried : Option (List UInt8)}

theorem end_own (h : net.Moves who peer own carried net') : net'.end? who peer = some own := by
  rw [h.ends, endAfter, if_pos ⟨rfl, rfl⟩]

theorem end_peer (h : net.Moves who peer own carried net') (hne : who ≠ peer) :
    net'.end? peer who = (net.end? peer who).map (Link.gain carried) := by
  rw [h.ends, endAfter, if_neg fun h' => hne h'.2, if_pos ⟨rfl, rfl⟩]

theorem end_other (h : net.Moves who peer own carried net') {a b : Rank}
    (hab : ¬(a = who ∧ b = peer)) (hba : ¬(a = peer ∧ b = who)) :
    net'.end? a b = net.end? a b := by
  rw [h.ends, endAfter, if_neg hab, if_neg hba]

theorem isOpen_own (h : net.Moves who peer own carried net') :
    net'.isOpen who peer = own.live :=
  isOpen_of_end h.end_own

theorem isOpen_peer (h : net.Moves who peer own carried net') (hne : who ≠ peer) :
    net'.isOpen peer who = net.isOpen peer who := by
  rw [isOpen, h.end_peer hne, isOpen]
  cases net.end? peer who with
  | none => rfl
  | some old => exact Link.gain_live carried old

theorem isOpen_other (h : net.Moves who peer own carried net') {a b : Rank}
    (hab : ¬(a = who ∧ b = peer)) (hba : ¬(a = peer ∧ b = who)) :
    net'.isOpen a b = net.isOpen a b := by
  rw [isOpen, isOpen, h.end_other hab hba]

theorem forall_end (h : net.Moves who peer own carried net') (hne : who ≠ peer)
    {P : Rank → Rank → Link → Prop} (hown : P who peer own)
    (hpeer : ∀ old, net.end? peer who = some old → P peer who (old.gain carried))
    (hother : ∀ a b link, ¬(a = who ∧ b = peer) → ¬(a = peer ∧ b = who) →
      net.end? a b = some link → P a b link)
    (a b : Rank) (link : Link) (hl : net'.end? a b = some link) : P a b link := by
  by_cases hab : a = who ∧ b = peer
  · obtain ⟨rfl, rfl⟩ := hab
    rw [h.end_own] at hl
    cases hl
    exact hown
  · by_cases hba : a = peer ∧ b = who
    · obtain ⟨rfl, rfl⟩ := hba
      rw [h.end_peer hne] at hl
      obtain ⟨old, ho, rfl⟩ := Option.map_eq_some_iff.mp hl
      exact hpeer old ho
    · rw [h.end_other hab hba] at hl
      exact hother a b link hab hba hl

end Moves

def settle (net : Network α) (who : Rank) {β : Type} (effect : Communicator.Effect β) : Network α :=
  match effect.bytes with
  | some (peer, bytes) => (net.setCommunicator who effect.communicator).carry who peer bytes
  | none => net.setCommunicator who effect.communicator

theorem exchange_eq {net : Network α} {who : Rank} {c : Communicator}
    (hc : net.communicator? who = some c) (choice : Choice) (exchange : Exchange) :
    net.exchange? who choice exchange =
      (c.exchange? (net.conditions who choice) exchange).map fun effect =>
        (effect.answer, net.settle who effect) := by
  obtain ⟨site, hs, rfl⟩ := Option.map_eq_some_iff.mp hc
  rw [exchange?, hs]
  change (site.communicator.exchange? (net.conditions who choice) exchange).bind _ = _
  cases site.communicator.exchange? (net.conditions who choice) exchange with
  | none => rfl
  | some effect =>
    change (match effect.bytes with
      | some (peer, bytes) => _
      | none => _ : Option (Option exchange.Answer × Network α)) =
        some (effect.answer, net.settle who effect)
    unfold settle
    cases effect.bytes <;> rfl

theorem communicator_of_end {net : Network α} {who peer : Rank} {link : Link}
    (h : net.end? who peer = some link) :
    ∃ c, net.communicator? who = some c ∧ c.topology.link? peer = some link := by
  rw [end_eq] at h
  exact Option.bind_eq_some_iff.mp h

theorem exchange_send {net net' : Network α} {who peer : Rank} {choice : Choice} {frame : Frame}
    {answer : Option Sent} {link : Link}
    (h : net.exchange? who choice (.send peer frame) = some (answer, net'))
    (hl : net.end? who peer = some link) (hne : who ≠ peer) :
    ∃ sent own carried, answer = some sent ∧
      link.Sends frame (net.reception who peer choice) sent own carried ∧
      net.Moves who peer own carried net' := by
  obtain ⟨c, hc, hcl⟩ := communicator_of_end hl
  have hsends := link.send_sends frame (net.reception who peer choice)
  rw [exchange_eq hc] at h
  simp only [Communicator.exchange?, hcl, conditions] at h
  generalize link.send frame (net.reception who peer choice) = result at h hsends
  obtain ⟨sent, own, bytes⟩ := result
  cases sent with
  | delivered =>
    cases h
    have hp := hsends.peer_eq.trans (Topology.peer_of_link hcl)
    exact ⟨_, own, some bytes, rfl, hsends, moves_carry hc hl hp hne⟩
  | gone | failed =>
    cases h
    have hp := hsends.peer_eq.trans (Topology.peer_of_link hcl)
    exact ⟨_, own, none, rfl, hsends, moves_setCommunicator hc hl hp⟩

theorem exchange_take {net net' : Network α} {who peer : Rank} {choice : Choice}
    {wanted : Wanted} {answer : Option Taken} {link : Link} {arrived : List Frame}
    (h : net.exchange? who choice (.take peer wanted) = some (answer, net'))
    (hl : net.end? who peer = some link) (holds : link.Holds arrived) :
    ∃ own, link.Takes wanted.accepts (!net.isOpen peer who) choice.breakdown arrived answer own ∧
      (answer = none → arrived ≠ []) ∧ net.Moves who peer own none net' := by
  obtain ⟨c, hc, hcl⟩ := communicator_of_end hl
  have htakes := holds.takes wanted.accepts ((net.conditions who choice).ended peer)
    (net.conditions who choice).breakdown
  rw [exchange_eq hc] at h
  simp only [Communicator.exchange?, hcl] at h
  generalize link.take wanted.accepts ((net.conditions who choice).ended peer)
    (net.conditions who choice).breakdown = result at h htakes
  obtain ⟨taken, own⟩ := result
  split at h
  · cases h
  · rename_i going
    cases h
    have hp := htakes.peer_eq.trans (Topology.peer_of_link hcl)
    refine ⟨own, htakes, ?_, moves_setCommunicator hc hl hp⟩
    rintro rfl rfl
    rw [holds] at going
    simp at going

theorem take_isSome {net : Network α} {who peer : Rank} {choice : Choice} {wanted : Wanted}
    {link : Link} {arrived : List Frame} (hl : net.end? who peer = some link)
    (holds : link.Holds arrived) (ready : arrived ≠ [] ∨ link.live = false ∨
      choice.breakdown ≠ none ∨ net.isOpen peer who = false) :
    (net.exchange? who choice (.take peer wanted)).isSome := by
  obtain ⟨c, hc, hcl⟩ := communicator_of_end hl
  have htakes := holds.takes wanted.accepts ((net.conditions who choice).ended peer)
    (net.conditions who choice).breakdown
  rw [exchange_eq hc, Option.isSome_map]
  simp only [Communicator.exchange?, hcl]
  rw [if_neg]
  · rfl
  · generalize link.take wanted.accepts ((net.conditions who choice).ended peer)
      (net.conditions who choice).breakdown = result at htakes
    obtain ⟨taken, own⟩ := result
    intro stuck
    simp only [Bool.and_eq_true, Option.isNone_iff_eq_none, List.isEmpty_iff] at stuck
    obtain ⟨rfl, empty⟩ := stuck
    rw [holds, List.map_eq_nil_iff] at empty
    cases htakes with
    | waiting refused live sound going =>
      have hopen : net.isOpen peer who = true := by simpa [conditions] using going
      have hsound : choice.breakdown = none := sound
      rcases ready with ready | ready | ready | ready
      · exact ready empty
      · rw [live] at ready
        cases ready
      · exact ready hsound
      · rw [hopen] at ready
        cases ready

theorem exchange_hangUp {net net' : Network α} {who : Rank} {c : Communicator} {choice : Choice}
    {answer : Option Unit} (hc : net.communicator? who = some c)
    (h : net.exchange? who choice .hangUp = some (answer, net')) :
    answer = some () ∧ net.Alike net' ∧ net'.end? = (net.hangUp who).end? := by
  rw [exchange_eq hc] at h
  cases h
  have hs : (net.setCommunicator who c.hangUp).site? = (net.hangUp who).site? := by
    funext r
    have hr := rank_of_communicator hc
    obtain ⟨site, hsite, rfl⟩ := Option.map_eq_some_iff.mp hc
    have hs := site_update net who
      (fun other => { other with communicator := site.communicator.hangUp }) (fun _ _ => hr) r
    have he := site_update net who
      (fun other => { other with communicator := other.communicator.hangUp })
      (fun _ ho => ho) r
    rw [setCommunicator, hangUp, hs, he, hsite]
    split <;> rfl
  exact ⟨rfl, (net.alike_hangUp who).trans (alike_of_site hs), end_of_site hs⟩

theorem site_sameCommunicator {net : Network α} {who : Rank} {c : Communicator}
    (hc : net.communicator? who = some c) : (net.setCommunicator who c).site? = net.site? := by
  funext r
  have hr := rank_of_communicator hc
  obtain ⟨site, hsite, rfl⟩ := Option.map_eq_some_iff.mp hc
  have hs := site_update net who
    (fun other => { other with communicator := site.communicator }) (fun _ _ => hr) r
  rw [setCommunicator, hs, hsite]
  split
  · rename_i hw
    rw [hw, hsite]
    rfl
  · rfl

theorem exchange_note {net net' : Network α} {who : Rank} {c : Communicator} {choice : Choice}
    {entry : LogEntry} {answer : Option Unit} (hc : net.communicator? who = some c)
    (h : net.exchange? who choice (.note entry) = some (answer, net')) :
    answer = some () ∧ net.Alike net' ∧ net'.end? = net.end? := by
  rw [exchange_eq hc] at h
  cases h
  have hs := site_sameCommunicator hc
  exact ⟨rfl, alike_of_site hs, end_of_site hs⟩

theorem link_of_no_end {net : Network α} {who peer : Rank} {c : Communicator}
    (hc : net.communicator? who = some c) (hl : net.end? who peer = none) :
    c.topology.link? peer = none := by
  rwa [end_eq, hc] at hl

theorem exchange_sendNowhere {net net' : Network α} {who peer : Rank} {c : Communicator}
    {choice : Choice} {frame : Frame} {answer : Option Sent}
    (hc : net.communicator? who = some c) (hl : net.end? who peer = none)
    (h : net.exchange? who choice (.send peer frame) = some (answer, net')) :
    answer = some .gone ∧ net.Alike net' ∧ net'.end? = net.end? := by
  have hs := site_sameCommunicator hc
  rw [exchange_eq hc] at h
  simp only [Communicator.exchange?, link_of_no_end hc hl] at h
  cases h
  exact ⟨rfl, alike_of_site hs, end_of_site hs⟩

theorem exchange_takeNowhere {net net' : Network α} {who peer : Rank} {c : Communicator}
    {choice : Choice} {wanted : Wanted} {answer : Option Taken}
    (hc : net.communicator? who = some c) (hl : net.end? who peer = none)
    (h : net.exchange? who choice (.take peer wanted) = some (answer, net')) :
    answer = some .gone ∧ net.Alike net' ∧ net'.end? = net.end? := by
  have hs := site_sameCommunicator hc
  rw [exchange_eq hc] at h
  simp only [Communicator.exchange?, link_of_no_end hc hl] at h
  cases h
  exact ⟨rfl, alike_of_site hs, end_of_site hs⟩

/-- What one exchange does to a network on whose ends whole frames have arrived. -/
inductive Exchanged (net : Network α) (who : Rank) (choice : Choice) :
    (exchange : Exchange) → Option exchange.Answer → Network α → Prop where
  | send {peer : Rank} {frame : Frame} {link own : Link} {sent : Sent}
      {carried : Option (List UInt8)} {net' : Network α} (has : net.end? who peer = some link)
      (sends : link.Sends frame (net.reception who peer choice) sent own carried)
      (moves : net.Moves who peer own carried net') :
      Exchanged net who choice (.send peer frame) (some sent) net'
  | take {peer : Rank} {wanted : Wanted} {link own : Link} {arrived : List Frame}
      {taken : Option Taken} {net' : Network α} (has : net.end? who peer = some link)
      (holds : link.Holds arrived)
      (takes : link.Takes wanted.accepts (!net.isOpen peer who) choice.breakdown arrived taken own)
      (progress : taken = none → arrived ≠ [])
      (moves : net.Moves who peer own none net') :
      Exchanged net who choice (.take peer wanted) taken net'
  | hangUp {net' : Network α} (alike : net.Alike net') (ends : net'.end? = (net.hangUp who).end?) :
      Exchanged net who choice .hangUp (some ()) net'
  | note {entry : LogEntry} {net' : Network α} (alike : net.Alike net')
      (ends : net'.end? = net.end?) : Exchanged net who choice (.note entry) (some ()) net'
  | sendNowhere {peer : Rank} {frame : Frame} {net' : Network α}
      (hasNot : net.end? who peer = none) (alike : net.Alike net') (ends : net'.end? = net.end?) :
      Exchanged net who choice (.send peer frame) (some .gone) net'
  | takeNowhere {peer : Rank} {wanted : Wanted} {net' : Network α}
      (hasNot : net.end? who peer = none) (alike : net.Alike net') (ends : net'.end? = net.end?) :
      Exchanged net who choice (.take peer wanted) (some .gone) net'

theorem exchanged {net net' : Network α} {who : Rank} {c : Communicator} {choice : Choice}
    {exchange : Exchange} {answer : Option exchange.Answer}
    (hc : net.communicator? who = some c)
    (other : ∀ peer link, net.end? who peer = some link → who ≠ peer)
    (holding : ∀ peer link, net.end? who peer = some link → ∃ arrived, link.Holds arrived)
    (h : net.exchange? who choice exchange = some (answer, net')) :
    net.Exchanged who choice exchange answer net' := by
  cases exchange with
  | send peer frame =>
    cases hl : net.end? who peer with
    | none =>
      obtain ⟨rfl, alike, ends⟩ := exchange_sendNowhere hc hl h
      exact .sendNowhere hl alike ends
    | some link =>
      obtain ⟨sent, own, carried, rfl, sends, moves⟩ := exchange_send h hl (other peer link hl)
      exact .send hl sends moves
  | take peer wanted =>
    cases hl : net.end? who peer with
    | none =>
      obtain ⟨rfl, alike, ends⟩ := exchange_takeNowhere hc hl h
      exact .takeNowhere hl alike ends
    | some link =>
      obtain ⟨arrived, holds⟩ := holding peer link hl
      obtain ⟨own, takes, progress, moves⟩ := exchange_take h hl holds
      exact .take hl holds takes progress moves
  | hangUp =>
    obtain ⟨rfl, alike, ends⟩ := exchange_hangUp hc h
    exact .hangUp alike ends
  | note entry =>
    obtain ⟨rfl, alike, ends⟩ := exchange_note hc h
    exact .note alike ends

theorem Exchanged.alike {net net' : Network α} {who : Rank} {choice : Choice}
    {exchange : Exchange} {answer : Option exchange.Answer}
    (h : net.Exchanged who choice exchange answer net') : net.Alike net' := by
  cases h with
  | send _ _ moves => exact moves.alike
  | take _ _ _ _ moves => exact moves.alike
  | hangUp alike | note alike | sendNowhere _ alike | takeNowhere _ alike => exact alike

def Answered.Fits : (exchange : Exchange) → exchange.Answer → Prop
  | .take _ wanted, .frame frame => wanted.accepts frame = true
  | _, _ => True

theorem Exchanged.fits {net net' : Network α} {who : Rank} {choice : Choice}
    {exchange : Exchange} {answer : exchange.Answer}
    (h : net.Exchanged who choice exchange (some answer) net') : Answered.Fits exchange answer := by
  generalize ha : some answer = answered at h
  cases h with
  | take _ _ takes =>
    subst ha
    cases answer with
    | frame frame => exact takes.accepted
    | gone | failed => trivial
  | send | hangUp | note | sendNowhere => trivial
  | takeNowhere =>
    cases ha
    trivial

theorem Exchanged.isOpen_own {net net' : Network α} {who : Rank} {choice : Choice}
    {exchange : Exchange} {answer : Option exchange.Answer}
    (h : net.Exchanged who choice exchange answer net') {peer : Rank}
    (opened : net'.isOpen who peer = true) : net.isOpen who peer = true := by
  obtain ⟨link', hl, live⟩ := end_of_isOpen opened
  have of_moves : ∀ {target : Rank} {link own : Link} {carried : Option (List UInt8)},
      net.end? who target = some link → (own.live = true → link.live = true) →
      net.Moves who target own carried net' → net.isOpen who peer = true := by
    intro target link own carried has live' moves
    by_cases hp : peer = target
    · subst hp
      rw [moves.isOpen_own] at opened
      rw [isOpen_of_end has]
      exact live' opened
    · by_cases hw : who = target ∧ peer = who
      · exact absurd (hw.2.trans hw.1) hp
      · rwa [moves.isOpen_other (fun h' => hp h'.2) hw] at opened
  cases h with
  | send has sends moves =>
    exact of_moves has (fun live => by obtain rfl := sends.live_eq live; exact live) moves
  | take has _ takes _ moves => exact of_moves has (fun live => (takes.live_eq live).1) moves
  | hangUp _ ends =>
    rw [ends, end_hangUp, if_pos rfl] at hl
    obtain ⟨old, ho, rfl⟩ := Option.map_eq_some_iff.mp hl
    cases live
  | note _ ends | sendNowhere _ _ ends | takeNowhere _ _ ends =>
    rw [ends] at hl
    rw [isOpen_of_end hl]
    exact live

theorem Exchanged.isOpen_other {net net' : Network α} {who : Rank} {choice : Choice}
    {exchange : Exchange} {answer : Option exchange.Answer}
    (h : net.Exchanged who choice exchange answer net') {holder : Rank} (hne : holder ≠ who)
    (peer : Rank) : net'.isOpen holder peer = net.isOpen holder peer := by
  have of_moves : ∀ {target : Rank} {own : Link} {carried : Option (List UInt8)},
      net.Moves who target own carried net' →
      net'.isOpen holder peer = net.isOpen holder peer := by
    intro target own carried moves
    by_cases hp : holder = target ∧ peer = who
    · obtain ⟨rfl, rfl⟩ := hp
      exact moves.isOpen_peer hne.symm
    · exact moves.isOpen_other (fun h' => hne h'.1) hp
  cases h with
  | send _ _ moves | take _ _ _ _ moves => exact of_moves moves
  | hangUp _ ends => rw [isOpen, isOpen, ends, end_hangUp, if_neg hne]
  | note _ ends | sendNowhere _ _ ends | takeNowhere _ _ ends => rw [isOpen, isOpen, ends]

theorem exchange_isSome {net : Network α} {who : Rank} {c : Communicator}
    (hc : net.communicator? who = some c) (choice : Choice) {exchange : Exchange}
    (h : ∀ peer wanted, exchange ≠ .take peer wanted) :
    (net.exchange? who choice exchange).isSome := by
  rw [exchange_eq hc, Option.isSome_map]
  cases exchange with
  | send peer frame =>
    simp only [Communicator.exchange?]
    cases c.topology.link? peer with
    | none => rfl
    | some link =>
      dsimp only
      split <;> rfl
  | take peer wanted => exact absurd rfl (h peer wanted)
  | hangUp => rfl
  | note entry => rfl

abbrev Answered : Type := (exchange : Exchange) × exchange.Answer

def immediate? (choice : Choice) : (action : Action) → Option (action.Answer × Event)
  | .call _ => none
  | .sleep time => some ((), .slept time)
  | .inject code => some (choice.outcome, .injected code choice.outcome)
  | .print text => some ((), .printed text)
  | .note entry => some ((), .noted entry)

/-- The steps of a participant by what it is doing, and the exchange that is answered in them. -/
inductive Proceeds (net : Network α) (who : Rank) (choice : Choice) :
    Network α → List Event → Option Answered → Prop where
  | start {call : Call} {next : call.Answer → Program Action.interface α} {c : Communicator}
      (doing : net.activity? who = some (.running (.ask (.call call) next)))
      (has : net.communicator? who = some c) :
      Proceeds net who choice (net.setActivity who (.calling call (c.conduct call) next))
        [.started call] none
  | act {action : Action} {next : action.Answer → Program Action.interface α}
      {answer : action.Answer} {event : Event}
      (doing : net.activity? who = some (.running (.ask action next)))
      (comes : immediate? choice action = some (answer, event)) :
      Proceeds net who choice (net.setActivity who (.running (next answer))) [event] none
  | finish {call : Call} {answer : call.Answer}
      {next : call.Answer → Program Action.interface α}
      (doing : net.activity? who = some (.calling call (.done answer) next)) :
      Proceeds net who choice (net.setActivity who (.running (next answer)))
        [.finished call answer] none
  | wait {call : Call} {exchange : Exchange} {rest : exchange.Answer → Conduct call.Answer}
      {next : call.Answer → Program Action.interface α} {net' : Network α}
      (doing : net.activity? who = some (.calling call (.ask exchange rest) next))
      (comes : net.exchange? who choice exchange = some (none, net')) :
      Proceeds net who choice net' [] none
  | exchange {call : Call} {exchange : Exchange} {rest : exchange.Answer → Conduct call.Answer}
      {next : call.Answer → Program Action.interface α} {answer : exchange.Answer}
      {net' : Network α}
      (doing : net.activity? who = some (.calling call (.ask exchange rest) next))
      (comes : net.exchange? who choice exchange = some (some answer, net')) :
      Proceeds net who choice (net'.setActivity who (.calling call (rest answer) next))
        (noteOf exchange) (some ⟨exchange, answer⟩)

def answered? (net : Network α) (who : Rank) (choice : Choice) : Option Answered :=
  match net.activity? who with
  | some (.calling _ (.ask exchange _) _) =>
    match net.exchange? who choice exchange with
    | some (some answer, _) => some ⟨exchange, answer⟩
    | _ => none
  | _ => none

theorem proceeds_of_proceed {net net' : Network α} {who : Rank} {choice : Choice}
    {events : List Event} (h : net.proceed? who choice = some (net', events)) :
    net.Proceeds who choice net' events (net.answered? who choice) := by
  obtain ⟨⟨c, activity⟩, hs, h⟩ := Option.bind_eq_some_iff.mp h
  have hc : net.communicator? who = some c := by rw [communicator?, hs]; rfl
  have ha : net.activity? who = some activity := by rw [activity?, hs]; rfl
  unfold answered?
  rw [ha]
  cases activity with
  | left result => cases h
  | running rest =>
    cases rest with
    | done result => cases h
    | ask action next =>
      cases action with
      | call call => cases h; exact .start ha hc
      | sleep time => cases h; exact .act ha rfl
      | inject code => cases h; exact .act ha rfl
      | print text => cases h; exact .act ha rfl
      | note entry => cases h; exact .act ha rfl
  | calling call rest next =>
    cases rest with
    | done answer => cases h; exact .finish ha
    | ask exchange rest =>
      obtain ⟨⟨answer, net''⟩, he, h⟩ := Option.bind_eq_some_iff.mp h
      simp only [he]
      cases answer with
      | none => cases h; exact .wait ha he
      | some answer => cases h; exact .exchange ha he

theorem proceed_isSome {net : Network α} {who : Rank} {choice : Choice} {activity : Activity α}
    (doing : net.activity? who = some activity) (h : match activity with
      | .running (.done _) | .left _ => False
      | .calling _ (.ask exchange _) _ => (net.exchange? who choice exchange).isSome
      | _ => True) :
    (net.proceed? who choice).isSome := by
  obtain ⟨⟨c, activity⟩, hs, rfl⟩ := Option.map_eq_some_iff.mp doing
  rw [proceed?, hs]
  cases activity with
  | left result => exact h.elim
  | running rest =>
    cases rest with
    | done result => exact h.elim
    | ask action next => cases action <;> rfl
  | calling call rest next =>
    cases rest with
    | done answer => rfl
    | ask exchange rest =>
      obtain ⟨⟨answer, net'⟩, he⟩ := Option.isSome_iff_exists.mp h
      change ((net.exchange? who choice exchange).bind _).isSome
      rw [he]
      cases answer <;> rfl

theorem leave_eq {net net' : Network α} {who : Rank} (h : net.leave? who = some net') :
    ∃ result, net.activity? who = some (.running (.done result)) ∧
      net' = (net.hangUp who).setActivity who (.left (some result)) := by
  obtain ⟨⟨c, activity⟩, hs, h⟩ := Option.bind_eq_some_iff.mp h
  have ha : net.activity? who = some activity := by rw [activity?, hs]; rfl
  cases activity with
  | running rest =>
    cases rest with
    | done result => cases h; exact ⟨result, ha, rfl⟩
    | ask => cases h
  | calling | left => cases h

theorem leave_isSome {net : Network α} {who : Rank} {result : α}
    (h : net.activity? who = some (.running (.done result))) : (net.leave? who).isSome := by
  obtain ⟨⟨c, activity⟩, hs, ha⟩ := Option.map_eq_some_iff.mp h
  cases ha
  rw [leave?, hs]
  rfl

/-- What a participant that goes away in the middle of writing leaves behind: nothing, or the
first bytes of a frame at the other end of an open connection. -/
inductive LeavesPart (net : Network α) (who : Rank) (net' : Network α) : Prop where
  | nothing (ends : net'.end? = net.end?)
  | part {peer : Rank} {frame : Frame} {bytes : List UInt8} {written : Nat}
      (fits : frame.packet = .ok bytes) (part : written < bytes.length)
      (opened : net.isOpen who peer = true)
      (ends : ∀ a b, net'.end? a b =
        if a = peer ∧ b = who then (net.end? a b).map (Link.receive (bytes.take written))
        else net.end? a b)

theorem carryPart_leaves (net : Network α) (who : Rank) (written : Nat) :
    net.Alike (net.carryPart who written) ∧ net.LeavesPart who (net.carryPart who written) := by
  unfold carryPart
  split
  · rename_i peer frame hs
    split
    · rename_i bytes fits
      split
      · rename_i opened
        have hlength : 4 ≤ bytes.length := by
          rw [(Frame.packet_eq_ok fits).2, List.length_append, Wire.length_littleEndian]
          omega
        exact ⟨alike_carry _ _ _ _, .part fits (by omega) opened (end_carry net who peer _)⟩
      · exact ⟨.refl net, .nothing rfl⟩
    · exact ⟨.refl net, .nothing rfl⟩
  · exact ⟨.refl net, .nothing rfl⟩

end FaultDrill.Network
