import FaultDrill.Proofs.Contract
import FaultDrill.Proofs.Moved
set_option autoImplicit false

namespace FaultDrill

/-- How far a participant is with the barrier that it is in. -/
inductive Stage where
  | outside
  | entering
  | waiting
  | passed
  /-- The coordinator still has to hear the first ones, and to release the others. -/
  | meeting (awaited heard : List Rank)
  deriving DecidableEq

namespace Stage

def due : Stage → Exchange → Prop
  | outside, .send _ frame => frame ≠ .barrierEnter ∧ frame ≠ .barrierRelease
  | outside, .take _ wanted => wanted ≠ .barrierEnter ∧ wanted ≠ .barrierRelease
  | outside, .hangUp => True
  | entering, .send peer frame => peer = .coordinator ∧ frame = .barrierEnter
  | waiting, .take peer wanted => peer = .coordinator ∧ wanted = .barrierRelease
  | meeting (next :: _) _, .take peer wanted => peer = next ∧ wanted = .barrierEnter
  | meeting [] (next :: _), .send peer frame => peer = next ∧ frame = .barrierRelease
  | _, .note _ => True
  | _, _ => False

def next : Stage → (exchange : Exchange) → exchange.Answer → Stage
  | entering, .send .., .delivered => waiting
  | waiting, .take .., .frame _ => passed
  | meeting (next :: awaited) heard, .take .., .frame _ => meeting awaited (heard ++ [next])
  | meeting (_ :: awaited) heard, .take .., .gone => meeting awaited heard
  | meeting [] (_ :: heard), .send .., .delivered => meeting [] heard
  | meeting [] (_ :: heard), .send .., .gone => meeting [] heard
  | stage, .note _, _ => stage
  | _, _, _ => outside

def contract : Contract Exchange.interface Stage where
  due := due
  follows stage exchange answer stage' := stage' = stage.next exchange answer

theorem due_note (stage : Stage) (entry : LogEntry) : stage.due (.note entry) := by
  cases stage with
  | meeting awaited heard => cases awaited <;> cases heard <;> trivial
  | outside | entering | waiting | passed => trivial

theorem next_note (stage : Stage) (entry : LogEntry) : stage.next (.note entry) () = stage := by
  cases stage with
  | meeting awaited heard => cases awaited <;> cases heard <;> rfl
  | outside | entering | waiting | passed => rfl

/-- A barrier is passed by those who were released and by the one who has released everybody. -/
def ends : (call : Call) → Stage → call.Answer → Prop
  | .barrier, stage, answer => answer = .ok () → stage = passed ∨ stage = meeting [] []
  | _, _, _ => True

def awaited : Stage → List Rank
  | meeting awaited _ => awaited
  | _ => []

def releasing : Stage → List Rank
  | meeting [] heard => heard
  | _ => []

def isMet : Stage → Bool
  | meeting [] _ => true
  | _ => false

def first (c : Communicator) : Call → Stage
  | .barrier => if c.topology.isSpoke then entering else meeting c.topology.livePeers []
  | _ => outside

end Stage

namespace Communicator
open Stage

theorem note_keeps {stage : Stage} (severity : Severity) (me : Rank) (message : String)
    {post : Stage → Unit → Prop} (h : post stage ()) :
    (note severity me message).Keeps contract post stage := by
  refine .perform (due_note stage _) fun answer stage' hf => ?_
  obtain rfl : stage' = stage := hf.trans (next_note stage _)
  exact h

theorem collect_keeps (me : Rank) (awaited heard : List Rank) :
    (collect me awaited).Keeps contract
      (fun stage result => ∀ present, result = .ok present → stage = meeting [] (heard ++ present))
      (meeting awaited heard) := by
  induction awaited generalizing heard with
  | nil =>
    intro present hp
    cases hp
    rw [List.append_nil]
  | cons peer awaited ih =>
    refine .bind (.perform ⟨rfl, rfl⟩ ?_)
    rintro answer stage rfl
    cases answer with
    | frame frame =>
      refine .bind ((ih (heard ++ [peer])).mono ?_)
      intro stage result hr present hp
      obtain ⟨rest, hrest, rfl⟩ : ∃ rest, result = .ok rest ∧ peer :: rest = present := by
        cases result with
        | error => cases hp
        | ok rest => exact ⟨rest, rfl, Except.ok.inj hp⟩
      rw [hr rest hrest, List.append_assoc]
      rfl
    | gone => exact .bind (note_keeps _ _ _ (ih heard))
    | failed error => exact nofun

theorem sendAll_keeps (me : Rank) (occasion : String) (heard : List Rank) :
    (sendAll me .barrierRelease occasion heard).Keeps contract
      (fun stage result => result = .ok () → stage = meeting [] []) (meeting [] heard) := by
  induction heard with
  | nil => exact fun _ => rfl
  | cons peer heard ih =>
    refine .bind (.perform ⟨rfl, rfl⟩ ?_)
    rintro answer stage rfl
    cases answer with
    | delivered => exact ih
    | gone => exact .bind (note_keeps _ _ _ ih)
    | failed error => exact nofun

theorem hubBarrier_keeps (me : Rank) (peers : List Rank) :
    (hubBarrier me peers).Keeps contract (ends .barrier) (meeting peers []) := by
  refine .bind ((collect_keeps me peers []).mono fun stage result h => ?_)
  cases result with
  | error error => exact nofun
  | ok present =>
    rw [h present rfl]
    exact (sendAll_keeps me _ present).mono fun stage result h ho => .inr (h ho)

theorem spokeBarrier_keeps : spokeBarrier.Keeps contract (ends .barrier) entering := by
  refine .bind (.bind (.perform ⟨rfl, rfl⟩ ?_))
  rintro answer stage rfl
  cases answer with
  | delivered =>
    refine .bind (.bind (.perform ⟨rfl, rfl⟩ ?_))
    rintro answer stage rfl
    cases answer with
    | frame => exact fun _ => .inl rfl
    | gone | failed => exact nofun
  | gone | failed => exact nofun

theorem sendAll_outside (me : Rank) {frame : Frame} (occasion : String) (peers : List Rank)
    (other : frame ≠ .barrierEnter ∧ frame ≠ .barrierRelease) :
    (sendAll me frame occasion peers).Keeps contract (fun _ _ => True) outside := by
  induction peers with
  | nil => trivial
  | cons peer peers ih =>
    refine .bind (.perform other ?_)
    rintro answer stage rfl
    cases answer with
    | delivered => exact ih
    | gone => exact .bind (note_keeps _ _ _ ih)
    | failed error => trivial

theorem deliver_outside (peer : Rank) {frame : Frame} (lost : GroupError)
    (other : frame ≠ .barrierEnter ∧ frame ≠ .barrierRelease) :
    (deliver peer frame lost).Keeps contract (fun _ _ => True) outside := by
  refine .bind (.perform other ?_)
  rintro answer stage rfl
  cases answer <;> trivial

theorem awaitPayload_outside (peer : Rank) {wanted : Wanted} (lost : GroupError)
    (other : wanted ≠ .barrierEnter ∧ wanted ≠ .barrierRelease) :
    (awaitPayload peer wanted lost).Keeps contract (fun _ _ => True) outside := by
  refine .bind (.bind (.perform other ?_))
  rintro answer stage rfl
  cases answer <;> trivial

theorem conduct_keeps (c : Communicator) (call : Call) :
    (c.conduct call).Keeps contract (ends call) (first c call) := by
  cases call with
  | barrier =>
    change c.barrier.Keeps contract (ends .barrier) (first c .barrier)
    unfold barrier first
    cases ht : c.topology with
    | alone => exact fun _ => .inr rfl
    | hub links => exact hubBarrier_keeps _ _
    | spoke link => exact spokeBarrier_keeps
  | broadcast root payload =>
    change (c.broadcast root payload).Keeps contract (fun _ _ => True) outside
    unfold broadcast
    split
    · trivial
    · split
      · exact awaitPayload_outside _ _ ⟨nofun, nofun⟩
      · cases payload with
        | none => trivial
        | some bytes =>
          have keeps := sendAll_outside c.rank "before the broadcast" c.topology.livePeers
            (show Frame.broadcast bytes ≠ _ ∧ Frame.broadcast bytes ≠ _ from ⟨nofun, nofun⟩)
          exact .bind (keeps.mono fun _ _ _ => trivial)
  | send target tag payload =>
    change (c.send target tag payload).Keeps contract (fun _ _ => True) outside
    unfold send
    cases c.route target with
    | error error => trivial
    | ok lost => exact deliver_outside _ _ ⟨nofun, nofun⟩
  | recv source tag =>
    change (c.recv source tag).Keeps contract (fun _ _ => True) outside
    unfold recv
    cases c.route source with
    | error error => trivial
    | ok lost => exact awaitPayload_outside _ _ ⟨nofun, nofun⟩
  | departed => trivial
  | finalize =>
    change c.finalize.Keeps contract (fun _ _ => True) outside
    refine .bind (.perform trivial ?_)
    rintro answer stage rfl
    exact .bind (note_keeps _ _ _ trivial)

end Communicator
end FaultDrill
