import Formwork.Proofs.Run.Preserves

/-!
# Frames

A frame is a reflexive and transitive relation of states. A run is within a frame when its state
change is allowed, whatever the outcome; it may assume and preserve an invariant and guarantee a
property of its value.
-/

namespace Formwork

variable {σ τ ε ε' α β γ : Type}

structure Frame (σ : Type) where
  Allows : σ → σ → Prop
  refl (s : σ) : Allows s s
  trans {s t u : σ} : Allows s t → Allows t u → Allows s u

namespace Frame

/-- The frame of a part of the state; the rest is unrestricted. -/
def through (F : Frame γ) (view : σ → γ) : Frame σ where
  Allows s t := F.Allows (view s) (view t)
  refl s := F.refl (view s)
  trans := F.trans

theorem through_of_eq {F : Frame γ} {view : σ → γ} {s t : σ} (same : view t = view s) :
    (F.through view).Allows s t := by
  change F.Allows (view s) (view t)
  rw [same]
  exact F.refl _

/-- A sequence of changes, one for each frame. -/
inductive Chain {ι : Type} (F : ι → Frame γ) : List ι → γ → γ → Prop where
  | nil (s : γ) : Chain F [] s s
  | cons {i : ι} {rest : List ι} {s t u : γ} (first : (F i).Allows s t)
      (next : Chain F rest t u) : Chain F (i :: rest) s u

theorem Chain.refl {ι : Type} (F : ι → Frame γ) (turns : List ι) (s : γ) : Chain F turns s s := by
  induction turns with
  | nil => exact .nil s
  | cons i rest ih => exact .cons ((F i).refl s) ih

end Frame

namespace Run

/-- From states with the invariant `I`, the run satisfies the frame, preserves `I`, and a value
satisfies `P`. -/
def Ensures (F : Frame σ) (I : σ → Prop) (P : α → Prop) (m : Run σ ε α) : Prop :=
  ∀ s, I s → F.Allows s (m s).2 ∧ I (m s).2 ∧ ∀ a, (m s).1 = .value a → P a

abbrev Within (F : Frame σ) (P : α → Prop) (m : Run σ ε α) : Prop :=
  Ensures F (fun _ => True) P m

namespace Ensures

variable {F : Frame σ} {I : σ → Prop} {P Q : α → Prop} {R : β → Prop}

theorem pure {a : α} (promised : P a) : Ensures F I P (Pure.pure a : Run σ ε α) := by
  intro s holds
  refine ⟨F.refl s, holds, ?_⟩
  rintro _ ⟨⟩
  exact promised

theorem fail (e : ε) : Ensures F I P (Run.fail e : Run σ ε α) :=
  fun s holds => ⟨F.refl s, holds, nofun⟩

theorem read {f : σ → α} (promised : ∀ s, I s → P (f s)) :
    Ensures F I P (Run.read f : Run σ ε α) := by
  intro s holds
  refine ⟨F.refl s, holds, ?_⟩
  rintro _ ⟨⟩
  exact promised s holds

theorem modify {f : σ → σ} (allowed : ∀ s, I s → F.Allows s (f s)) (kept : ∀ s, I s → I (f s)) :
    Ensures F I (fun _ => True) (Run.modify f : Run σ ε Unit) :=
  fun s holds => ⟨allowed s holds, kept s holds, fun _ _ => trivial⟩

theorem ofExcept {x : Except ε α} (promised : ∀ a, x = .ok a → P a) :
    Ensures F I P (Run.ofExcept x) := by
  cases x with
  | ok a => exact pure (promised a rfl)
  | error e => exact fail e

theorem bind {m : Run σ ε α} {f : α → Run σ ε β} (first : m.Ensures F I P)
    (next : ∀ a, P a → (f a).Ensures F I R) : (m >>= f).Ensures F I R := by
  intro s holds
  have left := first s holds
  rw [bind_apply]
  generalize m s = x at left
  rcases x with ⟨o, t⟩
  obtain ⟨allowed, kept, promised⟩ := left
  cases o with
  | value a =>
      obtain ⟨allowed', kept', promised'⟩ := next a (promised a rfl) t kept
      exact ⟨F.trans allowed allowed', kept', promised'⟩
  | error e => exact ⟨allowed, kept, nofun⟩
  | panic p => exact ⟨allowed, kept, nofun⟩

/-- A run that preserves the framed part satisfies every frame of it. -/
theorem of_preserves {F : Frame γ} {view : σ → γ} {m : Run σ ε α} (leaves : m.Preserves view) :
    m.Within (F.through view) fun _ => True :=
  fun s _ => ⟨Frame.through_of_eq (leaves s), trivial, fun _ _ => trivial⟩

theorem mapError {m : Run σ ε α} (f : ε → ε') (h : m.Ensures F I P) :
    (m.mapError f).Ensures F I P := by
  intro s holds
  have ends := h s holds
  unfold Run.mapError
  generalize m s = x at ends
  rcases x with ⟨a | e | p, t⟩
  · exact ⟨ends.1, ends.2.1, fun b is_value => ends.2.2 b (by cases is_value; rfl)⟩
  · exact ⟨ends.1, ends.2.1, nofun⟩
  · exact ⟨ends.1, ends.2.1, nofun⟩

theorem lift {m : Run σ Empty α} (h : m.Ensures F I P) : (m.lift : Run σ ε α).Ensures F I P :=
  h.mapError _

theorem attempt {m : Run σ ε α} (h : m.Ensures F I P) :
    (m.attempt : Run σ ε' (Except ε α)).Ensures F I fun x => ∀ a, x = .ok a → P a := by
  intro s holds
  have ends := h s holds
  unfold Run.attempt
  generalize m s = x at ends
  rcases x with ⟨a | e | p, t⟩
  · refine ⟨ends.1, ends.2.1, ?_⟩
    rintro _ ⟨⟩ _ ⟨⟩
    exact ends.2.2 a rfl
  · refine ⟨ends.1, ends.2.1, ?_⟩
    rintro _ ⟨⟩ _ ⟨⟩
  · exact ⟨ends.1, ends.2.1, nofun⟩

theorem catchPanic {m : Run σ ε α} (f : Panic → ε) (h : m.Ensures F I P) :
    (m.catchPanic f).Ensures F I P := by
  intro s holds
  have ends := h s holds
  unfold Run.catchPanic
  generalize m s = x at ends
  rcases x with ⟨a | e | p, t⟩
  · exact ends
  · exact ends
  · exact ⟨ends.1, ends.2.1, nofun⟩

theorem onPart {G : Frame τ} {J : τ → Prop} {get : τ → σ} {put : σ → τ → τ} {m : Run σ ε α}
    (h : m.Within F P) (allowed : ∀ t s, F.Allows (get t) s → G.Allows t (put s t))
    (kept : ∀ t s, J t → J (put s t)) : (m.onPart get put).Ensures G J P := by
  intro t holds
  obtain ⟨here, -, promised⟩ := h (get t) trivial
  exact ⟨allowed t _ here, kept t _ holds, promised⟩

end Ensures

end Run

end Formwork
