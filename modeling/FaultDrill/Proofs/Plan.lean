import FaultDrill.Schedule
import FaultDrill.Proofs.Contract
import FaultDrill.Proofs.Dialogue
import FaultDrill.Proofs.Execution
set_option autoImplicit false

/-!
# Plans

A plan fixes what is said on every connection of a group and who may be given which fault. A
program fulfils its part of the plan when it speaks and listens in turn on each of its connections,
passes over those that it has found gone, and hangs up only when everything has been said. This is
a property of one program alone; what the others do shows only in the answers it gets.
-/
namespace FaultDrill

/-- Where one participant is: on each of its connections, and in the faults it was given. -/
structure Situation where
  standing : Rank → Standing
  injected : List FaultCode

namespace Situation

def start : Situation := ⟨fun _ => .start, []⟩

def change (s : Situation) (peer : Rank) (f : Standing → Standing) : Situation :=
  { s with standing := fun r => if r = peer then f (s.standing r) else s.standing r }

def advance (s : Situation) (peer : Rank) : Situation := s.change peer .advance

def lose (s : Situation) (peer : Rank) : Situation := s.change peer .lose

def close (s : Situation) : Situation := { s with standing := fun r => (s.standing r).close }

def engaged (s : Situation) (peer : Rank) : Bool := (s.standing peer).status == .engaged

theorem engaged_iff {s : Situation} {peer : Rank} :
    s.engaged peer = true ↔ (s.standing peer).status = .engaged := by
  simp [engaged]

@[simp] theorem change_injected (s : Situation) (peer : Rank) (f : Standing → Standing) :
    (s.change peer f).injected = s.injected := rfl

theorem change_same (s : Situation) (peer : Rank) (f : Standing → Standing) :
    (s.change peer f).standing peer = f (s.standing peer) := if_pos rfl

theorem change_other (s : Situation) {peer r : Rank} (f : Standing → Standing) (h : r ≠ peer) :
    (s.change peer f).standing r = s.standing r := if_neg h

theorem lose_lost {s : Situation} {peer : Rank}
    (hl : (s.standing peer).status = .lost) : s.lose peer = s := by
  have hsame : ∀ r, (s.lose peer).standing r = s.standing r := by
    intro r
    by_cases hr : r = peer
    · subst hr
      rw [lose, change_same, Standing.lose, hl]
      simp [← hl]
    · exact s.change_other _ hr
  cases s with
  | mk standing injected => exact congrArg (Situation.mk · injected) (funext hsame)

@[simp] theorem lose_turn (s : Situation) (peer r : Rank) :
    ((s.lose peer).standing r).turn = (s.standing r).turn := by
  by_cases h : r = peer
  · subst h
    rw [lose, change_same]
    rfl
  · rw [lose, change_other s _ h]

@[simp] theorem close_turn (s : Situation) (r : Rank) :
    (s.close.standing r).turn = (s.standing r).turn := rfl

theorem advance_turn (s : Situation) (peer r : Rank) :
    ((s.advance peer).standing r).turn =
      if r = peer then (s.standing r).turn + 1 else (s.standing r).turn := by
  by_cases h : r = peer
  · subst h
    rw [advance, change_same, if_pos rfl]
    rfl
  · rw [advance, change_other s _ h, if_neg h]

def Behind (s s' : Situation) : Prop := ∀ r, (s.standing r).turn ≤ (s'.standing r).turn

theorem Behind.refl (s : Situation) : s.Behind s := fun _ => Nat.le_refl _

theorem Behind.trans {s s' s'' : Situation} (h : s.Behind s') (h' : s'.Behind s'') :
    s.Behind s'' :=
  fun r => Nat.le_trans (h r) (h' r)

theorem behind_advance (s : Situation) (peer : Rank) : s.Behind (s.advance peer) := by
  intro r
  rw [advance_turn]
  split
  · exact Nat.le_succ _
  · exact Nat.le_refl _

theorem behind_lose (s : Situation) (peer : Rank) : s.Behind (s.lose peer) :=
  fun r => Nat.le_of_eq (s.lose_turn peer r).symm

end Situation

structure Plan where
  size : UInt32
  dialogue : Rank → Dialogue
  strikes : Rank → FaultCode → Prop

namespace Plan

variable {plan : Plan} {who : Rank}

def side (who : Rank) : Side := if who.isCoordinator then .hub else .spoke

def between (plan : Plan) (a b : Rank) : Dialogue :=
  plan.dialogue (if a.isCoordinator then b else a)

def due (plan : Plan) (who : Rank) (s : Situation) : Exchange → Prop
  | .send peer frame => peer ∈ who.peers plan.size ∧ ((s.standing peer).status = .lost ∨
      (s.standing peer).status = .engaged ∧
        (plan.between who peer)[(s.standing peer).turn]? = some ⟨side who, frame⟩)
  | .take peer wanted => peer ∈ who.peers plan.size ∧ ((s.standing peer).status = .lost ∨
      (s.standing peer).status = .engaged ∧ ∃ frame, wanted.accepts frame = true ∧
        (plan.between who peer)[(s.standing peer).turn]? = some ⟨(side who).other, frame⟩)
  | .hangUp => ∀ peer ∈ who.peers plan.size, (s.standing peer).status = .engaged →
      (s.standing peer).turn = (plan.between who peer).length
  | .note _ => True

def follows (plan : Plan) (who : Rank) (s : Situation) :
    (exchange : Exchange) → exchange.Answer → Situation → Prop
  | .send peer _, .delivered, s' =>
    (s.standing peer).status = .engaged ∧ s' = s.advance peer
  | .send peer _, .gone, s' => s' = s.lose peer
  | .send _ frame, .failed error, s' => frame.packet = .error error ∧ s' = s
  | .take peer _, .frame frame, s' => (s.standing peer).status = .engaged ∧
      (plan.between who peer)[(s.standing peer).turn]? = some ⟨(side who).other, frame⟩ ∧
      s' = s.advance peer
  | .take peer _, .gone, s' => s' = s.lose peer
  | .take .., .failed _, _ => False
  | .hangUp, (), s' => s' = s.close
  | .note _, (), s' => s' = s

/-- What the exchanges of one participant have to be, and what their answers mean. -/
def contract (plan : Plan) (who : Rank) : Contract Exchange.interface Situation :=
  ⟨plan.due who, plan.follows who⟩

theorem injected_follows {s s' : Situation} {exchange : Exchange} {answer : exchange.Answer}
    (h : plan.follows who s exchange answer s') : s'.injected = s.injected := by
  cases exchange with
  | send peer frame =>
    cases answer with
    | delivered => rw [h.2]; rfl
    | gone => obtain rfl : s' = _ := h; rfl
    | failed error => rw [h.2]
  | take peer wanted =>
    cases answer with
    | frame frame => rw [h.2.2]; rfl
    | gone => obtain rfl : s' = _ := h; rfl
    | failed error => exact h.elim
  | hangUp => obtain rfl : s' = _ := h; rfl
  | note entry => obtain rfl : s' = _ := h; rfl

theorem behind_follows {s s' : Situation} {exchange : Exchange} {answer : exchange.Answer}
    (h : plan.follows who s exchange answer s') : s.Behind s' := by
  cases exchange with
  | send peer frame =>
    cases answer with
    | delivered =>
      rw [h.2]
      exact s.behind_advance peer
    | gone =>
      obtain rfl : s' = _ := h
      exact s.behind_lose peer
    | failed error =>
      rw [h.2]
      exact .refl s
  | take peer wanted =>
    cases answer with
    | frame frame =>
      rw [h.2.2]
      exact s.behind_advance peer
    | gone =>
      obtain rfl : s' = _ := h
      exact s.behind_lose peer
    | failed error => exact h.elim
  | hangUp =>
    obtain rfl : s' = _ := h
    exact fun _ => Nat.le_refl _
  | note entry =>
    obtain rfl : s' = s := h
    exact .refl s'

theorem shut_follows {s s' : Situation} {exchange : Exchange} {answer : exchange.Answer}
    {peer : Rank} (hp : peer ∈ who.peers plan.size) (due : plan.due who s exchange)
    (h : plan.follows who s exchange answer s') (shut : (s'.standing peer).status = .shut) :
    s'.standing peer = s.standing peer ∨
      (s'.standing peer).turn = (plan.between who peer).length := by
  have hadvance : ∀ {target : Rank}, (s.standing target).status = .engaged →
      s' = s.advance target → s'.standing peer = s.standing peer := by
    rintro target engaged rfl
    by_cases hr : peer = target
    · subst hr
      rw [Situation.advance, Situation.change_same, Standing.advance, engaged] at shut
      cases shut
    · exact Situation.change_other _ _ hr
  have hlose : ∀ {target : Rank}, s' = s.lose target → s'.standing peer = s.standing peer := by
    rintro target rfl
    by_cases hr : peer = target
    · subst hr
      rw [Situation.lose, Situation.change_same] at shut ⊢
      cases hs : (s.standing peer).status <;> simp [Standing.lose, hs] at shut ⊢
      rw [← hs]
    · exact Situation.change_other _ _ hr
  cases exchange with
  | send target frame =>
    cases answer with
    | delivered => exact .inl (hadvance h.1 h.2)
    | gone => exact .inl (hlose h)
    | failed error => exact .inl (by rw [h.2])
  | take target wanted =>
    cases answer with
    | frame frame => exact .inl (hadvance h.1 h.2.2)
    | gone => exact .inl (hlose h)
    | failed error => exact h.elim
  | note entry =>
    obtain rfl : s' = s := h
    exact .inl rfl
  | hangUp =>
    obtain rfl : s' = s.close := h
    cases hs : (s.standing peer).status with
    | engaged => exact .inr (due peer hp hs)
    | lost | shut =>
      left
      change (s.standing peer).close = s.standing peer
      simp [Standing.close, hs]
      rw [← hs]

/-- A communicator that is as the situation says. -/
structure Fits (plan : Plan) (who : Rank) (s : Situation) (c : Communicator) : Prop where
  shape : c.shape = (who, plan.size, who.peers plan.size, !who.isCoordinator)
  live : ∀ peer link, c.topology.link? peer = some link →
    (link.live = true ↔ (s.standing peer).status = .engaged)

/-- From the given situation on the program does its part of the plan, and where it ends the
result is as it should be. -/
def Fulfils {α : Type} (plan : Plan) (who : Rank) (post : Situation → α → Prop) :
    Situation → Program Action.interface α → Prop
  | s, .done result => post s result
  | s, .ask (.call call) next => ∀ c, plan.Fits who s c →
      (c.conduct call).Keeps (plan.contract who)
        (fun s' answer => plan.Fulfils who post s' (next answer)) s
  | s, .ask (.sleep _) next => plan.Fulfils who post s (next ())
  | s, .ask (.inject code) next => (plan.strikes who code ∧ s.injected = []) ∧
      ∀ outcome, plan.Fulfils who post { s with injected := [code] } (next outcome)
  | s, .ask (.print _) next => plan.Fulfils who post s (next ())
  | s, .ask (.note _) next => plan.Fulfils who post s (next ())

theorem Fulfils.mono {α : Type} {post post' : Situation → α → Prop} {s : Situation}
    {p : Program Action.interface α} (h : plan.Fulfils who post s p)
    (weaken : ∀ s result, post s result → post' s result) : plan.Fulfils who post' s p := by
  induction p generalizing s with
  | done result => exact weaken s result h
  | ask request next ih =>
    cases request with
    | call call => exact fun c fits => (h c fits).mono fun s' answer ha => ih answer ha
    | inject code => exact ⟨h.1, fun outcome => ih outcome (h.2 outcome)⟩
    | sleep | print | note => exact ih () h

/-- Whatever the program comes to, it has not fallen back on any connection. -/
theorem Fulfils.rising {α : Type} {post : Situation → α → Prop} {s : Situation}
    {p : Program Action.interface α} (h : plan.Fulfils who post s p) :
    plan.Fulfils who (fun s' result => post s' result ∧ s.Behind s') s p := by
  induction p generalizing s with
  | done result => exact ⟨h, .refl s⟩
  | ask request next ih =>
    cases request with
    | call call =>
      intro c fits
      have keeps := (h c fits).related Situation.Behind.refl Situation.Behind.trans behind_follows
      refine keeps.mono fun s' answer reached => (ih answer reached.1).mono ?_
      exact fun s'' result later => ⟨later.1, reached.2.trans later.2⟩
    | inject code => exact ⟨h.1, fun outcome => ih outcome (h.2 outcome)⟩
    | sleep | print | note => exact ih () h

theorem Fulfils.bind {α β : Type} {post : Situation → β → Prop} {s : Situation}
    {p : Program Action.interface α} {after : α → Program Action.interface β}
    (h : plan.Fulfils who (fun s result => plan.Fulfils who post s (after result)) s p) :
    plan.Fulfils who post s (p >>= after) := by
  change plan.Fulfils who post s (p.andThen after)
  induction p generalizing s with
  | done result => exact h
  | ask request next ih =>
    cases request with
    | call call => exact fun c fits => (h c fits).mono fun s' answer ha => ih answer ha
    | inject code => exact ⟨h.1, fun outcome => ih outcome (h.2 outcome)⟩
    | sleep | print | note => exact ih () h

/-- A stretch of a schedule does its part; what holds after it depends on whether it fails. -/
def Goes {α : Type} (plan : Plan) (who : Rank) (post : Situation → Except GroupError α → Prop)
    (s : Situation) (stretch : Schedule α) : Prop :=
  plan.Fulfils who post s stretch.run

namespace Goes

variable {α β : Type} {s : Situation} {post : Situation → Except GroupError α → Prop}

theorem mono {post' : Situation → Except GroupError α → Prop} {stretch : Schedule α}
    (h : plan.Goes who post s stretch) (weaken : ∀ s result, post s result → post' s result) :
    plan.Goes who post' s stretch :=
  Fulfils.mono h weaken

theorem pure {result : α} (h : post s (.ok result)) :
    plan.Goes who post s (Pure.pure result) := h

theorem throw {error : GroupError} (h : post s (.error error)) :
    plan.Goes who post s (MonadExcept.throw error) := h

/-- What goes on after a stretch that did not fail, and what holds after one that did. -/
def After (plan : Plan) (who : Rank) (post : Situation → Except GroupError β → Prop)
    (next : α → Schedule β) (s : Situation) : Except GroupError α → Prop
  | .ok result => plan.Goes who post s (next result)
  | .error error => post s (.error error)

theorem bind {post : Situation → Except GroupError β → Prop} {stretch : Schedule α}
    {next : α → Schedule β} (h : plan.Goes who (After plan who post next) s stretch) :
    plan.Goes who post s (stretch >>= next) := by
  refine Fulfils.bind (Fulfils.mono h fun s result hr => ?_)
  cases result with
  | ok result => exact hr
  | error error => exact hr

theorem attempt {post : Situation → Except GroupError (Except GroupError α) → Prop}
    {stretch : Schedule α}
    (h : plan.Goes who (fun s result => post s (.ok result)) s stretch) :
    plan.Goes who post s (Schedule.attempt stretch) :=
  Fulfils.bind h

theorem demand {answer : Except GroupError α} (h : post s answer) :
    plan.Goes who post s (Schedule.demand answer) := h

theorem print {post : Situation → Except GroupError Unit → Prop} (line : String)
    (h : post s (.ok ())) : plan.Goes who post s (Schedule.print line) := h

theorem note {post : Situation → Except GroupError Unit → Prop} (severity : Severity)
    (rank : Rank) (message : String) (h : post s (.ok ())) :
    plan.Goes who post s (Schedule.note severity rank message) := h

theorem sleep {post : Situation → Except GroupError Unit → Prop} (seconds : UInt64)
    (h : post s (.ok ())) : plan.Goes who post s (Schedule.sleep seconds) := h

theorem inject {post : Situation → Except GroupError FaultOutcome → Prop} {code : FaultCode}
    (due : plan.strikes who code ∧ s.injected = [])
    (h : ∀ outcome, post { s with injected := [code] } (.ok outcome)) :
    plan.Goes who post s (Schedule.inject code) := ⟨due, h⟩

theorem barrier {post : Situation → Except GroupError Unit → Prop}
    (h : ∀ c, plan.Fits who s c → c.barrier.Keeps (plan.contract who) post s) :
    plan.Goes who post s Schedule.barrier := h

theorem broadcast {post : Situation → Except GroupError (List UInt8) → Prop}
    {payload : Option (List UInt8)} (h : ∀ c, plan.Fits who s c →
      (c.broadcast .coordinator payload).Keeps (plan.contract who) post s) :
    plan.Goes who post s (Schedule.broadcast payload) := h

theorem send {post : Situation → Except GroupError Unit → Prop} {target : Rank} {line : String}
    (h : ∀ c, plan.Fits who s c →
      (c.send target Frame.textTag (Text.Utf8.encode line)).Keeps (plan.contract who) post s) :
    plan.Goes who post s (Schedule.send target line) := h

theorem recv {post : Situation → Except GroupError (List UInt8) → Prop} {source : Rank}
    (h : ∀ c, plan.Fits who s c →
      (c.recv source Frame.textTag).Keeps (plan.contract who) post s) :
    plan.Goes who post s (Schedule.recv source) := h

theorem departed {post : Situation → Except GroupError (List Rank) → Prop}
    (h : ∀ c, plan.Fits who s c → post s (.ok c.topology.departedPeers)) :
    plan.Goes who post s Schedule.departed := h

theorem finalize {post : Situation → Except GroupError Unit → Prop}
    (h : ∀ c, plan.Fits who s c → c.finalize.Keeps (plan.contract who) post s) :
    plan.Goes who post s Schedule.finalize := h

end Goes
end Plan
end FaultDrill
