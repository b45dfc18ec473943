import FaultDrill.Program
set_option autoImplicit false

/-!
# Contracts of programs

A contract follows a program through states of its own. In each state it says which requests are
due, and into which states each answer may lead. A program keeps a contract when it only asks for
what is due, whatever it has been answered before. What the contract says of the surroundings is
not assumed of them here; a statement about a run has to show it.
-/
namespace FaultDrill

structure Contract (I : Interface) (S : Type) where
  due : S → I.Request → Prop
  follows : S → (request : I.Request) → I.Answer request → S → Prop

namespace Program

variable {I : Interface} {S α β : Type} {contract : Contract I S}

/-- From the given state on the program keeps the contract, and where it ends the result is as it
should be there. -/
def Keeps (contract : Contract I S) (post : S → α → Prop) : S → Program I α → Prop
  | state, done result => post state result
  | state, ask request next =>
    contract.due state request ∧ ∀ answer state',
      contract.follows state request answer state' → (next answer).Keeps contract post state'

theorem Keeps.mono {post post' : S → α → Prop} {state : S} {p : Program I α}
    (h : p.Keeps contract post state) (weaken : ∀ state result, post state result →
      post' state result) : p.Keeps contract post' state := by
  induction p generalizing state with
  | done result => exact weaken state result h
  | ask request next ih => exact ⟨h.1, fun answer state' hf => ih answer (h.2 answer state' hf)⟩

theorem Keeps.andThen {post : S → β → Prop} {state : S} {p : Program I α}
    {after : α → Program I β}
    (h : p.Keeps contract (fun state result => (after result).Keeps contract post state) state) :
    (p.andThen after).Keeps contract post state := by
  induction p generalizing state with
  | done result => exact h
  | ask request next ih => exact ⟨h.1, fun answer state' hf => ih answer (h.2 answer state' hf)⟩

theorem Keeps.bind {post : S → β → Prop} {state : S} {p : Program I α} {after : α → Program I β}
    (h : p.Keeps contract (fun state result => (after result).Keeps contract post state) state) :
    (p >>= after).Keeps contract post state :=
  h.andThen

theorem Keeps.perform {request : I.Request} {post : S → I.Answer request → Prop} {state : S}
    (due : contract.due state request)
    (h : ∀ answer state', contract.follows state request answer state' → post state' answer) :
    (Program.perform request).Keeps contract post state :=
  ⟨due, h⟩

theorem Keeps.related {R : S → S → Prop} {post : S → α → Prop} {state : S} {p : Program I α}
    (refl : ∀ state, R state state)
    (trans : ∀ {first second third}, R first second → R second third → R first third)
    (step : ∀ {state request answer state'},
      contract.follows state request answer state' → R state state')
    (h : p.Keeps contract post state) :
    p.Keeps contract (fun last result => post last result ∧ R state last) state := by
  induction p generalizing state with
  | done result => exact ⟨h, refl state⟩
  | ask request next ih =>
    refine ⟨h.1, fun answer state' follows => ?_⟩
    have first := step follows
    exact (ih answer (h.2 answer state' follows)).mono fun last result reached =>
      ⟨reached.1, trans first reached.2⟩

end Program
end FaultDrill
