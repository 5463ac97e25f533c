import Mathlib.Data.String.Basic
import Formwork.Proofs.Number.Nearest
import Formwork.Proofs.Value.Equality

/-!
# The order of values

Texts are ordered by code points and numbers as doubles. The four ordering operators and strict
equality agree with this linear order, and refuse other operands.
-/

namespace Formwork

section Linear

variable {α : Type} [LinearOrder α] {x y z : α}

end Linear

theorem Finite.toRat_eq_toRat_iff {x y : Finite} : x.toRat = y.toRat ↔ x.signed = y.signed := by
  have unit : (quantaPerUnit : ℚ) ≠ 0 := Nat.cast_ne_zero.2 quantaPerUnit_pos.ne'
  rw [toRat, toRat, div_left_inj' unit, Int.cast_inj]

namespace Value

end Value

namespace BinaryOp

variable {op : BinaryOp} {a b c : Value}

section Standing

variable {o : Ordering} {accept : Ordering → Bool}

end Standing

end BinaryOp

end Formwork
