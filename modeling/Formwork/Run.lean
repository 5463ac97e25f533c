/-!
# Runs

Computations of engine and host over a state. A run returns a value, an error or a panic; the state
is kept in all cases.
-/

namespace Formwork

/-- The payload of a panic: a text, or something else. -/
inductive Panic where
  | message (text : String)
  | unreadable
deriving DecidableEq

def Panic.text : Panic → String
  | .message text => text
  | .unreadable => "non-string panic payload"

inductive Outcome (ε α : Type) where
  | value (a : α)
  | error (e : ε)
  | panic (p : Panic)

/-- A computation over states `σ` that returns, fails or panics. -/
def Run (σ ε α : Type) := σ → Outcome ε α × σ

namespace Run

variable {σ τ ε ε' ε'' α β : Type}

def pure (a : α) : Run σ ε α := fun s => (.value a, s)

def fail (e : ε) : Run σ ε α := fun s => (.error e, s)

def panic (p : Panic) : Run σ ε α := fun s => (.panic p, s)

def bind (m : Run σ ε α) (f : α → Run σ ε β) : Run σ ε β := fun s =>
  match m s with
  | (.value a, s) => f a s
  | (.error e, s) => (.error e, s)
  | (.panic p, s) => (.panic p, s)

instance : Monad (Run σ ε) where
  pure := Run.pure
  bind := Run.bind

def read (f : σ → α) : Run σ ε α := fun s => (.value (f s), s)

def modify (f : σ → σ) : Run σ ε Unit := fun s => (.value (), f s)

def ofExcept : Except ε α → Run σ ε α
  | .ok a => Run.pure a
  | .error e => fail e

def mapError (f : ε → ε') (m : Run σ ε α) : Run σ ε' α := fun s =>
  match m s with
  | (.value a, s) => (.value a, s)
  | (.error e, s) => (.error (f e), s)
  | (.panic p, s) => (.panic p, s)

/-- Changes the error type of a run that cannot fail. -/
def lift (m : Run σ Empty α) : Run σ ε α := m.mapError Empty.elim

/-- Turns an error into a value. -/
def attempt (m : Run σ ε α) : Run σ ε' (Except ε α) := fun s =>
  match m s with
  | (.value a, s) => (.value (.ok a), s)
  | (.error e, s) => (.value (.error e), s)
  | (.panic p, s) => (.panic p, s)

/-- Turns a panic into an error. -/
def catchPanic (f : Panic → ε) (m : Run σ ε α) : Run σ ε α := fun s =>
  match m s with
  | (.value a, s) => (.value a, s)
  | (.error e, s) => (.error e, s)
  | (.panic p, s) => (.error (f p), s)

def onPart (get : τ → σ) (put : σ → τ → τ) (m : Run σ ε α) : Run τ ε α := fun t =>
  let (outcome, s) := m (get t)
  (outcome, put s t)

@[simp] theorem pure_apply (a : α) (s : σ) :
    (Pure.pure a : Run σ ε α) s = (.value a, s) := rfl

theorem bind_apply (m : Run σ ε α) (f : α → Run σ ε β) (s : σ) :
    (m >>= f) s =
      match m s with
      | (.value a, s) => f a s
      | (.error e, s) => (.error e, s)
      | (.panic p, s) => (.panic p, s) := rfl

theorem bind_of_value {m : Run σ ε α} {f : α → Run σ ε β} {s t : σ} {a : α}
    (h : m s = (.value a, t)) : (m >>= f) s = f a t := by
  rw [bind_apply, h]

theorem bind_of_error {m : Run σ ε α} {f : α → Run σ ε β} {s t : σ} {e : ε}
    (h : m s = (.error e, t)) : (m >>= f) s = (.error e, t) := by
  rw [bind_apply, h]

theorem bind_of_panic {m : Run σ ε α} {f : α → Run σ ε β} {s t : σ} {p : Panic}
    (h : m s = (.panic p, t)) : (m >>= f) s = (.panic p, t) := by
  rw [bind_apply, h]

@[simp] theorem read_bind_apply (f : σ → α) (g : α → Run σ ε β) (s : σ) :
    (read f >>= g) s = g (f s) s := rfl

@[simp] theorem modify_bind_apply (f : σ → σ) (g : Unit → Run σ ε β) (s : σ) :
    (modify f >>= g) s = g () (f s) := rfl

@[simp] theorem ofExcept_ok_bind (a : α) (g : α → Run σ ε β) :
    ofExcept (.ok a) >>= g = g a := rfl

theorem mapError_mapError (f : ε → ε') (g : ε' → ε'') (m : Run σ ε α) :
    (m.mapError f).mapError g = m.mapError (g ∘ f) := by
  funext s
  unfold mapError
  rcases m s with ⟨_ | _ | _, t⟩ <;> rfl

theorem mapError_id (m : Run σ ε α) : m.mapError id = m := by
  funext s
  unfold mapError
  rcases m s with ⟨_ | _ | _, t⟩ <;> rfl

instance : LawfulMonad (Run σ ε) :=
  LawfulMonad.mk' (Run σ ε)
    (fun m => by
      funext s
      change (match m s with
        | (.value a, s) => (.value (id a), s)
        | (.error e, s) => (.error e, s)
        | (.panic p, s) => (.panic p, s)) = m s
      rcases m s with ⟨_ | _ | _, t⟩ <;> rfl)
    (fun _ _ => rfl)
    (fun m f g => by
      funext s
      simp only [bind_apply]
      rcases m s with ⟨_ | _ | _, t⟩ <;> rfl)

end Run

end Formwork
