import Formwork.Expr.Eval
import Formwork.Proofs.Value.Number

/-!
# Integer arithmetic

Operators compute with doubles and convert the result back to a number. On integers up to 2^53 in
magnitude this is exact, and no zero is negative.
-/

namespace Formwork.Expr

def Gives (scope : Scope) (e : Expr) (n : Int) : Prop :=
  ∃ inRange, e.eval scope = .ok (.number (.integer n inRange))

section Operands

variable {scope : Scope} {operand left right : Expr} {v w : Value}

theorem eval_unary (op : UnaryOp) (given : operand.eval scope = .ok v) :
    (unary op operand).eval scope = op.apply v := by
  rw [eval, given]
  rfl

theorem eval_binary (op : BinaryOp) (left_given : left.eval scope = .ok v)
    (right_given : right.eval scope = .ok w) :
    (binary op left right).eval scope = op.apply v w := by
  rw [eval, left_given, right_given]
  rfl

end Operands

/-- The tree evaluates to a number whose double is an integer. -/
def Doubles (scope : Scope) (e : Expr) (n : Int) : Prop :=
  ∃ m : Number, e.eval scope = .ok (.number m) ∧ m.toFinite.Holds n

variable {scope : Scope} {e left right : Expr} {a b c : Int}

theorem Gives.doubles (gives : e.Gives scope a) (small : a.natAbs ≤ 2 ^ 53) :
    e.Doubles scope a := by
  obtain ⟨inRange, given⟩ := gives
  exact ⟨.integer a inRange, given, Number.toFinite_holds (Finite.exact_of_le small)⟩

theorem gives_of_holds {r : Binary64} (applied : e.eval scope = .ok (.ofBinary64 r))
    (holds : ∃ z, r = .finite z ∧ z.Holds c) (small : c.natAbs ≤ 2 ^ 53) : e.Gives scope c := by
  obtain ⟨z, rfl, is_c⟩ := holds
  obtain ⟨inRange, number⟩ := Value.ofBinary64_of_holds is_c (by omega)
  exact ⟨inRange, applied.trans (congrArg Except.ok number)⟩

namespace Doubles

theorem negate (operand : e.Doubles scope a) (small : a.natAbs ≤ 2 ^ 53) :
    (unary .negate e).Gives scope (-a) := by
  obtain ⟨m, given, holds⟩ := operand
  exact gives_of_holds (eval_unary .negate given) ⟨_, rfl, holds.neg⟩ (by omega)

section Binary

variable (left_doubles : left.Doubles scope a) (right_doubles : right.Doubles scope b)
include left_doubles right_doubles

/-- An operator on doubles gives an integer if the resulting double is integral. -/
theorem gives {op : BinaryOp} (f : Finite → Finite → Binary64)
    (applies : ∀ m n : Number,
      op.apply (.number m) (.number n) = .ok (.ofBinary64 (f m.toFinite n.toFinite)))
    (closed : ∀ x y : Finite, x.Holds a → y.Holds b → ∃ z, f x y = .finite z ∧ z.Holds c)
    (small : c.natAbs ≤ 2 ^ 53) : (binary op left right).Gives scope c := by
  obtain ⟨m, given, holds⟩ := left_doubles
  obtain ⟨n, given', holds'⟩ := right_doubles
  exact gives_of_holds ((eval_binary op given given').trans (applies m n)) (closed _ _ holds holds')
    small

theorem add (small : (a + b).natAbs ≤ 2 ^ 53) : (binary .add left right).Gives scope (a + b) := by
  apply left_doubles.gives right_doubles Finite.add (fun _ _ => rfl) _ small
  intro x y holds holds'
  exact holds.add holds' (Finite.exact_of_le small)

theorem subtract (small : (a - b).natAbs ≤ 2 ^ 53) :
    (binary .subtract left right).Gives scope (a - b) := by
  apply left_doubles.gives right_doubles Finite.sub (fun _ _ => rfl) _ small
  intro x y holds holds'
  exact holds.sub holds' (Finite.exact_of_le small)

theorem multiply (small : (a * b).natAbs ≤ 2 ^ 53) :
    (binary .multiply left right).Gives scope (a * b) := by
  apply left_doubles.gives right_doubles Finite.mul (fun _ _ => rfl) _ small
  intro x y holds holds'
  exact holds.mul holds' (Finite.exact_of_le small)

theorem quotient (op : BinaryOp) (f : Finite → Finite → Binary64)
    (applies : op.apply = op.quotient f) : ∃ x y : Finite, x.Holds a ∧ y.Holds b ∧
      (binary op left right).eval scope =
        if b = 0 then .error .divisionByZero else .ok (.ofBinary64 (f x y)) := by
  obtain ⟨m, given, holds⟩ := left_doubles
  obtain ⟨n, given', holds'⟩ := right_doubles
  refine ⟨m.toFinite, n.toFinite, holds, holds', ?_⟩
  rw [eval_binary op given given', applies]
  simp only [← holds'.quanta_eq_zero_iff]
  rfl

theorem quotient_eq_error_iff (op : BinaryOp) (f : Finite → Finite → Binary64)
    (applies : op.apply = op.quotient f) :
    (binary op left right).eval scope = .error .divisionByZero ↔ b = 0 := by
  obtain ⟨x, y, -, -, evaluated⟩ := left_doubles.quotient right_doubles op f applies
  rw [evaluated]
  by_cases zero : b = 0 <;> simp [zero]

theorem remainder (nonzero : b ≠ 0) (small : a.natAbs ≤ 2 ^ 53) :
    (binary .remainder left right).Gives scope (a.tmod b) := by
  obtain ⟨x, y, holds, holds', evaluated⟩ :=
    left_doubles.quotient right_doubles .remainder Finite.rem rfl
  rw [if_neg nonzero] at evaluated
  have rest_small : (a.tmod b).natAbs ≤ 2 ^ 53 := by
    rw [Int.natAbs_tmod]
    exact (Nat.mod_le _ _).trans small
  exact gives_of_holds evaluated (holds.rem holds' nonzero (Finite.exact_of_le rest_small))
    rest_small

end Binary

theorem divide (left_doubles : left.Doubles scope (b * c)) (right_doubles : right.Doubles scope b)
    (nonzero : b ≠ 0) (small : (b * c).natAbs ≤ 2 ^ 53) :
    (binary .divide left right).Gives scope c := by
  obtain ⟨x, y, holds, holds', evaluated⟩ :=
    left_doubles.quotient right_doubles .divide Finite.div rfl
  rw [if_neg nonzero] at evaluated
  have quotient_small : c.natAbs ≤ 2 ^ 53 := by
    rw [Int.natAbs_mul] at small
    exact (Nat.le_mul_of_pos_left _ (Int.natAbs_pos.2 nonzero)).trans small
  exact gives_of_holds evaluated (holds.div holds' nonzero (Finite.exact_of_le quotient_small))
    quotient_small

end Doubles

theorem natAbs_le_of_abs_le {n : Int} (small : |n| ≤ 2 ^ 53) : n.natAbs ≤ 2 ^ 53 := by
  rw [Int.abs_eq_natAbs] at small
  omega

/-- Integer arithmetic is exact for operands and results up to 2^53 in magnitude; this includes
truncated remainders, exact quotients and negation. Division and remainder fail exactly on a zero
divisor. -/
theorem integer_arithmetic_exact (left_gives : left.Gives scope a)
    (right_gives : right.Gives scope b) (left_small : |a| ≤ 2 ^ 53) (right_small : |b| ≤ 2 ^ 53) :
    (|a + b| ≤ 2 ^ 53 → (binary .add left right).Gives scope (a + b)) ∧
    (|a - b| ≤ 2 ^ 53 → (binary .subtract left right).Gives scope (a - b)) ∧
    (|a * b| ≤ 2 ^ 53 → (binary .multiply left right).Gives scope (a * b)) ∧
    (b ≠ 0 → (binary .remainder left right).Gives scope (a.tmod b)) ∧
    (b ≠ 0 → ∀ c, a = b * c → (binary .divide left right).Gives scope c) ∧
    (unary .negate left).Gives scope (-a) ∧
    ((binary .divide left right).eval scope = .error .divisionByZero ↔ b = 0) ∧
    ((binary .remainder left right).eval scope = .error .divisionByZero ↔ b = 0) := by
  have a_small := natAbs_le_of_abs_le left_small
  have left_doubles := left_gives.doubles a_small
  have right_doubles := right_gives.doubles (natAbs_le_of_abs_le right_small)
  refine ⟨fun small => ?_, fun small => ?_, fun small => ?_, fun nonzero => ?_, fun nonzero => ?_,
    ?_, ?_, ?_⟩
  · exact left_doubles.add right_doubles (natAbs_le_of_abs_le small)
  · exact left_doubles.subtract right_doubles (natAbs_le_of_abs_le small)
  · exact left_doubles.multiply right_doubles (natAbs_le_of_abs_le small)
  · exact left_doubles.remainder right_doubles nonzero a_small
  · rintro c rfl
    exact left_doubles.divide right_doubles nonzero a_small
  · exact left_doubles.negate a_small
  · exact left_doubles.quotient_eq_error_iff right_doubles .divide Finite.div rfl
  · exact left_doubles.quotient_eq_error_iff right_doubles .remainder Finite.rem rfl

end Formwork.Expr

namespace Formwork.Sample

open Formwork.Expr

/-- At the bound, the remainder of a negative integer is the integer zero. -/
theorem integer_arithmetic_exact_edge :
    let scope : Scope := fun _ => none
    let left : Expr := .literal (.ofInt (-9007199254740992))
    let right : Expr := .literal (.ofInt 4503599627370496)
    left.Gives scope (-9007199254740992) ∧ right.Gives scope 4503599627370496 ∧
    |(-9007199254740992 : Int)| ≤ 2 ^ 53 ∧ |(4503599627370496 : Int)| ≤ 2 ^ 53 ∧
    (binary .add left right).Gives scope (-4503599627370496) ∧
    (binary .remainder left right).Gives scope 0 ∧
    (binary .divide left right).Gives scope (-2) ∧
    (unary .negate left).Gives scope 9007199254740992 := by
  intro scope left right
  have left_gives : left.Gives scope (-9007199254740992) := ⟨by decide, rfl⟩
  have right_gives : right.Gives scope 4503599627370496 := ⟨by decide, rfl⟩
  have left_small : |(-9007199254740992 : Int)| ≤ 2 ^ 53 := by decide
  have right_small : |(4503599627370496 : Int)| ≤ 2 ^ 53 := by decide
  obtain ⟨sum, -, -, rest, quotient, negation, -⟩ :=
    integer_arithmetic_exact left_gives right_gives left_small right_small
  exact ⟨left_gives, right_gives, left_small, right_small, sum (by decide), rest (by decide),
    quotient (by decide) (-2) (by decide), negation⟩

end Formwork.Sample
