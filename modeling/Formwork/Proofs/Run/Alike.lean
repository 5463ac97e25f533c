import Formwork.Event

/-!
# Related runs

Two runs are alike over a relation of states when they end in related states with related values,
the same error or the same panic. The combinators of runs preserve this.
-/

namespace Formwork

variable {σ τ ε ε' α β γ δ : Type}

theorem Outcome.exists_state_of_fst {m : Outcome ε α × σ} {o : Outcome ε α} (h : m.1 = o) :
    ∃ t, m = (o, t) := ⟨m.2, Prod.ext h rfl⟩

/-- Related values, or the same error, or the same panic. -/
inductive Outcome.Alike (A : α → β → Prop) : Outcome ε α → Outcome ε β → Prop where
  | value {a : α} {b : β} (related : A a b) : Outcome.Alike A (.value a) (.value b)
  | error (e : ε) : Outcome.Alike A (.error e) (.error e)
  | panic (p : Panic) : Outcome.Alike A (.panic p) (.panic p)

namespace Outcome.Alike

variable {A : α → β → Prop}

theorem eq {o o' : Outcome ε α} (h : o.Alike Eq o') : o = o' := by
  cases h with
  | value related => rw [related]
  | error e => rfl
  | panic p => rfl

theorem join {A : α → γ → Prop} {B : β → γ → Prop} {C : α → β → Prop}
    (meet : ∀ a b c, A a c → B b c → C a b) {o : Outcome ε α} {o' : Outcome ε β}
    {o'' : Outcome ε γ} (h : o.Alike A o'') (h' : o'.Alike B o'') : o.Alike C o' := by
  cases h with
  | value related => cases h' with | value related' => exact .value (meet _ _ _ related related')
  | error e => cases h'; exact .error e
  | panic p => cases h'; exact .panic p

end Outcome.Alike

namespace Run

theorem lift_cases (m : Run σ Empty α) (s : σ) :
    (∃ a t, m s = (.value a, t) ∧ (m.lift : Run σ ε α) s = (.value a, t)) ∨
      ∃ p t, m s = (.panic p, t) ∧ (m.lift : Run σ ε α) s = (.panic p, t) := by
  unfold lift mapError
  rcases m s with ⟨a | e | p, t⟩
  · exact .inl ⟨a, t, rfl, rfl⟩
  · exact e.elim
  · exact .inr ⟨p, t, rfl, rfl⟩

theorem lift_eq_value_iff {m : Run σ Empty α} {s t : σ} {a : α} :
    (m.lift : Run σ ε α) s = (.value a, t) ↔ m s = (.value a, t) := by
  rcases m.lift_cases (ε := ε) s with ⟨b, u, ended, lifted⟩ | ⟨p, u, ended, lifted⟩ <;>
    simp [ended, lifted]

theorem lift_eq_panic_iff {m : Run σ Empty α} {s t : σ} {p : Panic} :
    (m.lift : Run σ ε α) s = (.panic p, t) ↔ m s = (.panic p, t) := by
  rcases m.lift_cases (ε := ε) s with ⟨b, u, ended, lifted⟩ | ⟨q, u, ended, lifted⟩ <;>
    simp [ended, lifted]

theorem lift_ne_error (m : Run σ Empty α) (s t : σ) (e : ε) :
    (m.lift : Run σ ε α) s ≠ (.error e, t) := by
  rcases m.lift_cases (ε := ε) s with ⟨b, u, -, lifted⟩ | ⟨q, u, -, lifted⟩ <;> simp [lifted]

theorem value_of_lift {m : Run σ Empty α} {s : σ} {a : α}
    (h : ((m.lift : Run σ ε α) s).1 = .value a) : (m s).1 = .value a := by
  obtain ⟨t, ended⟩ := Outcome.exists_state_of_fst h
  rw [lift_eq_value_iff.1 ended]

theorem lift_of_value {m : Run σ Empty α} {s : σ} {a : α}
    (h : (m s).1 = .value a) : ((m.lift : Run σ ε α) s).1 = .value a := by
  obtain ⟨t, ended⟩ := Outcome.exists_state_of_fst h
  rw [lift_eq_value_iff.2 ended]

theorem bind_eq_value_iff {m : Run σ ε α} {f : α → Run σ ε β} {s u : σ} {b : β} :
    (m >>= f) s = (.value b, u) ↔ ∃ a t, m s = (.value a, t) ∧ f a t = (.value b, u) := by
  rw [bind_apply]
  rcases m s with ⟨a | e | p, t⟩ <;> simp [and_assoc]

theorem bind_eq_panic_iff {m : Run σ ε α} {f : α → Run σ ε β} {s u : σ} {p : Panic} :
    (m >>= f) s = (.panic p, u) ↔
      m s = (.panic p, u) ∨ ∃ a t, m s = (.value a, t) ∧ f a t = (.panic p, u) := by
  rw [bind_apply]
  rcases m s with ⟨a | e | p, t⟩ <;> simp [and_assoc]

theorem exists_of_bind_value {m : Run σ ε α} {f : α → Run σ ε β} {s : σ} {b : β}
    (h : ((m >>= f) s).1 = .value b) :
    ∃ a t, m s = (.value a, t) ∧ (f a t).1 = .value b := by
  obtain ⟨u, ended⟩ := Outcome.exists_state_of_fst h
  obtain ⟨a, t, first, next⟩ := bind_eq_value_iff.1 ended
  exact ⟨a, t, first, congrArg Prod.fst next⟩

theorem value_of_ofExcept {x : Except ε α} {s : σ} {a : α}
    (h : (ofExcept x s).1 = .value a) : x = .ok a := by
  cases x with
  | ok b => cases h; rfl
  | error e => cases h

@[simp] theorem lift_snd (m : Run σ Empty α) (s : σ) : ((m.lift : Run σ ε α) s).2 = (m s).2 := by
  unfold lift mapError
  rcases m s with ⟨_ | _ | _, t⟩ <;> rfl

theorem lift_fst_congr {m : Run σ Empty α} {n : Run τ Empty α} {s : σ} {t : τ}
    (h : (m s).1 = (n t).1) : ((m.lift : Run σ ε α) s).1 = ((n.lift : Run τ ε α) t).1 := by
  unfold lift mapError
  generalize m s = x, n t = y at h
  rcases x with ⟨o, s'⟩
  rcases y with ⟨_, t'⟩
  cases h
  cases o <;> rfl

/-- From related states both runs have related outcomes and end in related states. -/
def Alike (R : σ → τ → Prop) (A : α → β → Prop) (m : Run σ ε α) (n : Run τ ε β) : Prop :=
  ∀ s t, R s t → (m s).1.Alike A (n t).1 ∧ R (m s).2 (n t).2

namespace Alike

variable {R : σ → τ → Prop} {A : α → β → Prop} {B : γ → δ → Prop}

theorem self (m : Run σ ε α) : Alike Eq Eq m m := by
  rintro s _ rfl
  refine ⟨?_, rfl⟩
  rcases (m s).1 with a | e | p
  · exact .value rfl
  · exact .error e
  · exact .panic p

theorem pure {a : α} {b : β} (related : A a b) :
    Alike R A (Pure.pure a : Run σ ε α) (Pure.pure b : Run τ ε β) :=
  fun _ _ h => ⟨.value related, h⟩

theorem fail (e : ε) : Alike R A (Run.fail e : Run σ ε α) (Run.fail e : Run τ ε β) :=
  fun _ _ h => ⟨.error e, h⟩

theorem read {f : σ → α} {g : τ → β} (related : ∀ s t, R s t → A (f s) (g t)) :
    Alike R A (Run.read f : Run σ ε α) (Run.read g : Run τ ε β) :=
  fun s t h => ⟨.value (related s t h), h⟩

theorem modify {f : σ → σ} {g : τ → τ} (related : ∀ s t, R s t → R (f s) (g t)) :
    Alike R Eq (Run.modify f : Run σ ε Unit) (Run.modify g : Run τ ε Unit) :=
  fun s t h => ⟨.value rfl, related s t h⟩

theorem ofExcept (x : Except ε α) : Alike R Eq (Run.ofExcept x) (Run.ofExcept x) := by
  cases x with
  | ok a => exact pure rfl
  | error e => exact fail e

theorem bind {m : Run σ ε α} {n : Run τ ε β} {f : α → Run σ ε γ} {g : β → Run τ ε δ}
    (first : Alike R A m n) (next : ∀ a b, A a b → Alike R B (f a) (g b)) :
    Alike R B (m >>= f) (n >>= g) := by
  intro s t h
  have ends := first s t h
  rw [bind_apply, bind_apply]
  generalize m s = x, n t = y at ends
  rcases x with ⟨o, s'⟩
  rcases y with ⟨o', t'⟩
  obtain ⟨outcome, states⟩ := ends
  cases outcome with
  | value related => exact next _ _ related s' t' states
  | error e => exact ⟨.error e, states⟩
  | panic p => exact ⟨.panic p, states⟩

theorem bind_eq {m : Run σ ε α} {n : Run τ ε α} {f : α → Run σ ε γ} {g : α → Run τ ε δ}
    (first : Alike R Eq m n) (next : ∀ a, Alike R B (f a) (g a)) :
    Alike R B (m >>= f) (n >>= g) := by
  refine first.bind fun a b same => ?_
  rw [← same]
  exact next a

theorem mapError {m : Run σ ε α} {n : Run τ ε β} (f : ε → ε') (h : Alike R A m n) :
    Alike R A (m.mapError f) (n.mapError f) := by
  intro s t hst
  have ends := h s t hst
  unfold Run.mapError
  generalize m s = x, n t = y at ends
  rcases x with ⟨o, s'⟩
  rcases y with ⟨o', t'⟩
  obtain ⟨outcome, states⟩ := ends
  cases outcome with
  | value related => exact ⟨.value related, states⟩
  | error e => exact ⟨.error (f e), states⟩
  | panic p => exact ⟨.panic p, states⟩

theorem lift {m : Run σ Empty α} {n : Run τ Empty β} (h : Alike R A m n) :
    Alike R A (m.lift : Run σ ε α) (n.lift : Run τ ε β) := h.mapError _

theorem attempt {m : Run σ ε α} {n : Run τ ε α} (h : Alike R Eq m n) :
    Alike R Eq (m.attempt : Run σ ε' (Except ε α)) (n.attempt : Run τ ε' (Except ε α)) := by
  intro s t hst
  have ends := h s t hst
  unfold Run.attempt
  generalize m s = x, n t = y at ends
  rcases x with ⟨o, s'⟩
  rcases y with ⟨o', t'⟩
  obtain ⟨outcome, states⟩ := ends
  cases outcome with
  | value related => exact ⟨.value (congrArg _ related), states⟩
  | error e => exact ⟨.value rfl, states⟩
  | panic p => exact ⟨.panic p, states⟩

theorem catchPanic {m : Run σ ε α} {n : Run τ ε β} (f : Panic → ε) (h : Alike R A m n) :
    Alike R A (m.catchPanic f) (n.catchPanic f) := by
  intro s t hst
  have ends := h s t hst
  unfold Run.catchPanic
  generalize m s = x, n t = y at ends
  rcases x with ⟨o, s'⟩
  rcases y with ⟨o', t'⟩
  obtain ⟨outcome, states⟩ := ends
  cases outcome with
  | value related => exact ⟨.value related, states⟩
  | error e => exact ⟨.error e, states⟩
  | panic p => exact ⟨.error (f p), states⟩

theorem also {P : α → Prop} {m : Run σ ε α} {n : Run τ ε β} (h : Alike R A m n)
    (known : ∀ s a, (m s).1 = .value a → P a) : Alike R (fun a b => A a b ∧ P a) m n := by
  intro s t hst
  obtain ⟨outcome, states⟩ := h s t hst
  refine ⟨?_, states⟩
  generalize ended : (m s).1 = o, (n t).1 = o' at outcome
  cases outcome with
  | value related => exact .value ⟨related, known s _ ended⟩
  | error e => exact .error e
  | panic p => exact .panic p

theorem join {A : α → γ → Prop} {B : β → γ → Prop} {C : α → β → Prop} {m : Run σ ε α}
    {m' : Run σ ε β} {n : Run σ ε γ} (h : Alike Eq A m n) (h' : Alike Eq B m' n)
    (meet : ∀ a b c, A a c → B b c → C a b) : Alike Eq C m m' := by
  rintro s _ rfl
  obtain ⟨outcome, states⟩ := h s s rfl
  obtain ⟨outcome', states'⟩ := h' s s rfl
  exact ⟨outcome.join meet outcome', states.trans states'.symm⟩

theorem onPart {σ' τ' : Type} {R' : σ' → τ' → Prop} {get : σ' → σ} {put : σ → σ' → σ'}
    {get' : τ' → τ} {put' : τ → τ' → τ'} {m : Run σ ε α} {n : Run τ ε β} (h : Alike R A m n)
    (into : ∀ s t, R' s t → R (get s) (get' t))
    (back : ∀ s t x y, R' s t → R x y → R' (put x s) (put' y t)) :
    Alike R' A (m.onPart get put) (n.onPart get' put') := by
  intro s t hst
  obtain ⟨outcome, states⟩ := h (get s) (get' t) (into s t hst)
  exact ⟨outcome, back s t _ _ hst states⟩

end Alike

end Run

namespace World

/-- Worlds with related host states; the logs are arbitrary. -/
def Over (R : σ → τ → Prop) (v : World σ) (w : World τ) : Prop := R v.host w.host

variable {R : σ → τ → Prop} {A : α → β → Prop}

theorem onHost_fst (m : Run σ ε α) (w : World σ) : (onHost m w).1 = (m w.host).1 := rfl

theorem onHost_eq_iff {m : Run σ ε α} {w w' : World σ} {o : Outcome ε α} :
    onHost m w = (o, w') ↔ ∃ t, m w.host = (o, t) ∧ w' = { w with host := t } := by
  unfold onHost Run.onPart
  rcases m w.host with ⟨o', t⟩
  simp only [Prod.mk.injEq]
  constructor
  · rintro ⟨rfl, rfl⟩
    exact ⟨t, ⟨rfl, rfl⟩, rfl⟩
  · rintro ⟨_, ⟨rfl, rfl⟩, rfl⟩
    exact ⟨rfl, rfl⟩

theorem onHost_lift_bind (m : Run σ Empty α) (f : α → Run σ Empty β) :
    (onHost m.lift >>= fun a => onHost (f a).lift : Run (World σ) ε β) =
      onHost (m >>= f).lift := by
  funext w
  simp only [Run.bind_apply, onHost, Run.onPart, Run.lift, Run.mapError]
  rcases m w.host with ⟨a | e | q, t⟩
  · rfl
  · exact e.elim
  · rfl

theorem onHost_alike {m : Run σ ε α} {n : Run τ ε β} (h : Run.Alike R A m n) :
    Run.Alike (Over R) A (onHost m) (onHost n) :=
  h.onPart (fun _ _ related => related) fun _ _ _ _ _ related => related

theorem record_alike (e e' : Event) :
    Run.Alike (Over R) Eq (record e : Run (World σ) ε Unit) (record e' : Run (World τ) ε Unit) :=
  .modify fun _ _ related => related

end World

end Formwork
