import Formwork.Event

/-!
# Preserved views

A run preserves a view of the state when the view is unchanged afterwards, whatever the outcome.
-/

namespace Formwork

variable {σ τ ε ε' α β γ : Type}

namespace Run

def Preserves (f : σ → γ) (m : Run σ ε α) : Prop := ∀ s, f (m s).2 = f s

/-- Leaves the whole state alone. -/
abbrev Quiet (m : Run σ ε α) : Prop := m.Preserves id

namespace Preserves

variable {f : σ → γ}

theorem pure (a : α) : Preserves f (Pure.pure a : Run σ ε α) := fun _ => rfl

theorem fail (e : ε) : Preserves f (Run.fail e : Run σ ε α) := fun _ => rfl

theorem read (g : σ → α) : Preserves f (Run.read g : Run σ ε α) := fun _ => rfl

theorem modify {g : σ → σ} (same : ∀ s, f (g s) = f s) :
    Preserves f (Run.modify g : Run σ ε Unit) := same

theorem ofExcept (x : Except ε α) : Preserves f (Run.ofExcept x) := by
  cases x with
  | ok a => exact pure a
  | error e => exact fail e

theorem bind_of {m : Run σ ε α} {g : α → Run σ ε β} (first : m.Preserves f)
    (next : ∀ s a, (m s).1 = .value a → (g a).Preserves f) : (m >>= g).Preserves f := by
  intro s
  have left := first s
  have right := next s
  rw [bind_apply]
  generalize m s = x at left right
  rcases x with ⟨o, t⟩
  cases o with
  | value a => exact (right a rfl t).trans left
  | error e => exact left
  | panic p => exact left

theorem bind_snd {m : Run σ ε α} {g : α → Run σ ε β} (next : ∀ a, (g a).Preserves f) (s : σ) :
    f ((m >>= g) s).2 = f (m s).2 := by
  rw [bind_apply]
  rcases m s with ⟨a | e | p, t⟩
  · exact next a t
  · rfl
  · rfl

theorem bind {m : Run σ ε α} {g : α → Run σ ε β} (first : m.Preserves f)
    (next : ∀ a, (g a).Preserves f) : (m >>= g).Preserves f :=
  fun s => (bind_snd next s).trans (first s)

theorem mapError {m : Run σ ε α} (g : ε → ε') (h : m.Preserves f) :
    (m.mapError g).Preserves f := by
  intro s
  have same := h s
  unfold Run.mapError
  generalize m s = x at same
  rcases x with ⟨_ | _ | _, t⟩ <;> exact same

theorem lift {m : Run σ Empty α} (h : m.Preserves f) :
    (m.lift : Run σ ε α).Preserves f := h.mapError _

theorem onPart {g : τ → γ} {get : τ → σ} {put : σ → τ → τ} {m : Run σ ε α} (h : m.Preserves f)
    (through : ∀ t s, f s = f (get t) → g (put s t) = g t) : (m.onPart get put).Preserves g :=
  fun t => through t _ (h (get t))

end Preserves

end Run

namespace World

theorem preserves_record (view : σ → γ) (e : Event) :
    (record e : Run (World σ) ε Unit).Preserves fun w => view w.host := .modify fun _ => rfl

theorem preserves_host_record (e : Event) :
    (record e : Run (World σ) ε Unit).Preserves World.host := preserves_record id e

theorem preserves_onHost {view : σ → γ} {m : Run σ ε α} (h : m.Preserves view) :
    (onHost m).Preserves fun w => view w.host := h.onPart fun _ _ same => same

theorem preserves_host_onHost {m : Run σ ε α} (quiet : m.Quiet) :
    (onHost m).Preserves World.host := preserves_onHost quiet

end World

end Formwork
