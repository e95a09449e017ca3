import Mudlib.Space.Basic
/-!
Computations on a space: they fail or succeed, and what they did to the space stays in either case.

Computations may call each other without end, so each is bounded; `none` stands for one that did not
end within its bound. Nothing turns it into a failure or a success.
-/
set_option autoImplicit false

namespace Mudlib

def Run (α : Type) : Type := Space → Option (Except RuntimeError α × Space)

namespace Run

variable {α β : Type}

def bind (m : Run α) (f : α → Run β) : Run β := fun s =>
  match m s with
  | none => none
  | some (.error e, s) => some (.error e, s)
  | some (.ok a, s) => f a s

instance : Monad Run where
  pure a := fun s => some (.ok a, s)
  bind := bind

def diverge : Run α := fun _ => none

def fail (e : RuntimeError) : Run α := fun s => some (.error e, s)

def ask (question : Space → α) : Run α := fun s => some (.ok (question s), s)

def require (question : Space → Except RuntimeError α) : Run α := fun s => some (question s, s)

def search (question : Space → Option (Except RuntimeError α)) : Run α := fun s =>
  (question s).map fun answer => (answer, s)

def modify (change : Space → Space) : Run Unit := fun s => some (.ok (), change s)

def step (advance : Space → Except RuntimeError α × Space) : Run α := fun s => some (advance s)

/-- A change that may be refused, which leaves the space as it is. -/
def change (step : Space → Except RuntimeError Space) : Run Unit := fun s =>
  match step s with
  | .ok s' => some (.ok (), s')
  | .error e => some (.error e, s)

def changeWithin (step : Space → Option (Except RuntimeError Space)) : Run Unit := fun s =>
  match step s with
  | none => none
  | some (.ok s') => some (.ok (), s')
  | some (.error e) => some (.error e, s)

def attempt (m : Run α) : Run (Except RuntimeError α) := fun s =>
  (m s).map fun r => (.ok r.1, r.2)

def each (f : α → Run Unit) : List α → Run Unit
  | [] => pure ()
  | a :: as => do
    f a
    each f as

theorem bind_apply (m : Run α) (f : α → Run β) (s : Space) :
    (m >>= f) s = match m s with
      | none => none
      | some (.error e, s) => some (.error e, s)
      | some (.ok a, s) => f a s := rfl

theorem ask_bind (question : Space → α) (f : α → Run β) (s : Space) :
    (ask question >>= f) s = f (question s) s := rfl

theorem modify_bind (change : Space → Space) (f : Unit → Run β) (s : Space) :
    (modify change >>= f) s = f () (change s) := rfl

theorem require_bind (question : Space → Except RuntimeError α) (f : α → Run β) (s : Space) :
    (require question >>= f) s = match question s with
      | .error e => some (.error e, s)
      | .ok a => f a s := by
  rw [bind_apply, require]
  cases question s <;> rfl

theorem search_bind (question : Space → Option (Except RuntimeError α)) (f : α → Run β)
    (s : Space) :
    (search question >>= f) s = match question s with
      | none => none
      | some (.error e) => some (.error e, s)
      | some (.ok a) => f a s := by
  rw [bind_apply, search]
  rcases question s with _ | ⟨_ | _⟩ <;> rfl

theorem step_bind (advance : Space → Except RuntimeError α × Space) (f : α → Run β) (s : Space) :
    (step advance >>= f) s = match advance s with
      | (.error e, s) => some (.error e, s)
      | (.ok a, s) => f a s := by
  rw [bind_apply, step]
  rcases advance s with ⟨_ | _, s₁⟩ <;> rfl

theorem attempt_bind (m : Run α) (f : Except RuntimeError α → Run β) (s : Space) :
    (attempt m >>= f) s = match m s with
      | none => none
      | some (result, s) => f result s := by
  rw [bind_apply, attempt]
  cases m s <;> rfl

end Run

end Mudlib
