import Formwork.Proofs.Middleware.Forward
import Formwork.Proofs.Number.Typed

/-!
# Coerced values

The integer reading is idempotent, so that numeric wrappers are as well.
-/

namespace Formwork

def Number.toRat : Number → ℚ
  | .integer n _ => n
  | .float x => x.toRat

namespace Value

variable {v : Value}

theorem Settled.null_or_whole (settled : v.Settled) :
    v = .null ∨ ∃ (n : Number) (i : ℤ), v = .number n ∧ n.toRat = i ∧
      (|i| < 9223372036854775808 → ∃ inRange, n = .integer i inRange) := by
  cases settled with
  | null => exact .inl rfl
  | integer n inRange signed => exact .inr ⟨_, n, rfl, rfl, fun _ => ⟨inRange, rfl⟩⟩
  | float x integral beyond =>
      have whole : x.toRat = x.truncate := Finite.holds_iff_toRat.1 (Finite.holds_truncate integral)
      refine .inr ⟨_, x.truncate, rfl, whole, fun small => ?_⟩
      exact absurd (abs_lt.1 small) beyond

theorem Settled.leadingInteger_eq (settled : v.Settled) : v.leadingInteger = v := by
  cases settled with
  | null => rfl
  | integer n inRange signed => rw [leadingInteger_integer, if_pos signed]
  | float x integral beyond =>
      change ofBinary64 x.trunc = _
      rw [Finite.trunc_of_isIntegral integral, ofBinary64, dif_neg fun whole => beyond whole.2]

end Value

namespace Middleware

variable {σ : Type}

theorem coerce_coerce (onChange : Option (Handler σ)) :
    coerce (some (coerce onChange)) = coerce onChange := by
  funext v
  cases onChange with
  | none => rfl
  | some handler =>
      change handler v.leadingInteger.leadingInteger = handler v.leadingInteger
      rw [v.settled_leadingInteger.leadingInteger_eq]

theorem render_iterate_asNumber (inner : Component σ) (k : Nat) :
    (asNumber^[k + 1] inner).render = (asNumber inner).render := by
  induction k with
  | zero => rfl
  | succ k ih =>
      rw [Function.iterate_succ_apply']
      funext props binding
      change (asNumber^[k + 1] inner).render props _ = _
      rw [ih]
      change inner.render props { binding with onChange := some (coerce (some (coerce _))) } = _
      rw [coerce_coerce]
      rfl

/-- Under any number of numeric wrappers, a component's handler passes settled values on
unchanged. -/
theorem exists_holding_iterate_asNumber (inner : Component σ) (h : Handler σ) (k : Nat) :
    ∃ g : Handler σ, ((asNumber^[k] inner).holding h).render = (inner.holding g).render ∧
      ∀ v : Value, v.Settled → g v = h v := by
  cases k with
  | zero => exact ⟨h, rfl, fun _ _ => rfl⟩
  | succ k =>
      refine ⟨fun v => h v.leadingInteger, ?_, fun _ settled => congrArg h settled.leadingInteger_eq⟩
      calc ((asNumber^[k + 1] inner).holding h).render
        _ = ((asNumber inner).holding h).render := by
          unfold Component.holding
          rw [render_iterate_asNumber]
        _ = (inner.holding fun v => h v.leadingInteger).render := by
          rw [holding_asNumber]

end Middleware

/-- The integer reading of a value is null or a whole number, an integer within the signed range,
and a fixed point. Under any number of numeric wrappers, a component's handler treats it as the
outer handler does. -/
theorem Value.leadingInteger_stable (v : Value) :
    (v.leadingInteger = .null ∨ ∃ (n : Number) (i : ℤ), v.leadingInteger = .number n ∧
      n.toRat = i ∧ (|i| < 9223372036854775808 → ∃ inRange, n = .integer i inRange)) ∧
    v.leadingInteger.leadingInteger = v.leadingInteger ∧
    ∀ (σ : Type) (inner : Component σ) (h : Handler σ) (k : Nat), ∃ g : Handler σ,
      ((Middleware.asNumber^[k] inner).holding h).render = (inner.holding g).render ∧
        g v.leadingInteger = h v.leadingInteger := by
  have settled := v.settled_leadingInteger
  refine ⟨settled.null_or_whole, settled.leadingInteger_eq, fun σ inner h k => ?_⟩
  obtain ⟨g, same, passes⟩ := Middleware.exists_holding_iterate_asNumber inner h k
  exact ⟨g, same, passes _ settled⟩

end Formwork
