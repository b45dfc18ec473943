set_option autoImplicit false

/-!
# Programs

A program asks its surroundings for something, goes on with the answer, and in the end has a
result. What it may ask for and what it is answered is its interface. A program is data, so the
same one runs under a script, on a network, and under any run that a statement speaks of.
-/
namespace FaultDrill

/-- Requests and, for each, the type of its answers. -/
structure Interface where
  Request : Type
  Answer : Request → Type

inductive Program (I : Interface) (α : Type) : Type where
  | done (result : α)
  | ask (request : I.Request) (next : I.Answer request → Program I α)

namespace Program

variable {I : Interface}

def andThen {α β : Type} : Program I α → (α → Program I β) → Program I β
  | done result, after => after result
  | ask request next, after => ask request fun answer => (next answer).andThen after

instance : Monad (Program I) where
  pure := done
  bind := andThen

def perform (request : I.Request) : Program I (I.Answer request) := ask request done

theorem andThen_done {α : Type} (p : Program I α) : p.andThen done = p := by
  induction p with
  | done => rfl
  | ask request next ih => simp [andThen, ih]

theorem andThen_assoc {α β γ : Type} (p : Program I α) (f : α → Program I β)
    (g : β → Program I γ) : (p.andThen f).andThen g = p.andThen fun a => (f a).andThen g := by
  induction p with
  | done => rfl
  | ask request next ih => simp [andThen, ih]

instance : LawfulMonad (Program I) :=
  .mk' (Program I) andThen_done (fun _ _ => rfl) andThen_assoc

end Program
end FaultDrill
