import Formwork.Proofs.Value.Order
import Formwork.Proofs.Value.Position

/-!
# Equal indices

Numbers are compared as doubles, whereas indices are read from their text. Equal integers below 2^53
are the same and select the same element; a double selects none, so it agrees with an equal integer
only where that selects null.
-/

namespace Formwork

namespace Number

def isInteger : Number → Bool
  | .integer _ _ => true
  | .float _ => false

section Integers

variable {m n : Int} (inRange : -9223372036854775808 ≤ n ∧ n < 18446744073709551616)

theorem isNearest_toFinite : (Number.integer n inRange).toFinite.IsNearest n := by
  obtain ⟨x, finite, -, nearest⟩ :=
    Decimal.exists_nearest (decide (n < 0)) (lt_overflow (n := n.natAbs) (by omega))
  rw [Decimal.toBinary64_natAbs, ofInt_eq_toFinite n inRange] at finite
  cases finite
  rwa [Finite.withSign_natAbs] at nearest

theorem toRat_of_small (small : n.natAbs ≤ 2 ^ 53) :
    (Number.integer n inRange).toFinite.toRat = n :=
  Finite.holds_iff_toRat.1 (toFinite_holds (Finite.exact_of_le small))

/-- Below 2^53 in magnitude, integers with equal doubles are equal. -/
theorem eq_of_toRat_eq {inRange : -9223372036854775808 ≤ n ∧ n < 18446744073709551616}
    {inRange' : -9223372036854775808 ≤ m ∧ m < 18446744073709551616} (small : m.natAbs < 2 ^ 53)
    (same : (Number.integer m inRange').toFinite.toRat = (Number.integer n inRange).toFinite.toRat) :
    m = n := by
  rw [toRat_of_small inRange' small.le] at same
  by_cases near : n.natAbs ≤ 2 ^ 53
  · rw [toRat_of_small inRange near] at same
    exact_mod_cast same
  · -- The double 2^53 or its negative is nearer to the larger integer than the smaller integer is.
    exfalso
    have edge (e : Int) (size : e.natAbs = 2 ^ 53) : |m - n| ≤ |e - n| := by
      obtain ⟨x, holds⟩ := Finite.exact_of_le size.le
      have closest := (isNearest_toFinite inRange).closest x
      rw [← same, Finite.holds_iff_toRat.1 holds] at closest
      exact_mod_cast closest
    have above := edge (2 ^ 53) rfl
    have below := edge (-2 ^ 53) rfl
    simp only [Int.abs_eq_natAbs] at above below
    omega

end Integers

end Number

namespace Value

variable {vs : List Value} {m n : Int}
  {inRange : -9223372036854775808 ≤ n ∧ n < 18446744073709551616}
  {inRange' : -9223372036854775808 ≤ m ∧ m < 18446744073709551616}

theorem element_float (x : Finite) : element vs (.float x) = .null := rfl

theorem element_eq_of_toRat_eq (short : vs.length ≤ 2 ^ 53)
    (same : (Number.integer m inRange').toFinite.toRat = (Number.integer n inRange).toFinite.toRat) :
    element vs (.integer m inRange') = element vs (.integer n inRange) := by
  by_cases left : 0 ≤ m ∧ m < vs.length
  · have equal : m = n := Number.eq_of_toRat_eq (by omega) same
    subst equal
    rfl
  · by_cases right : 0 ≤ n ∧ n < vs.length
    · have equal : n = m := Number.eq_of_toRat_eq (by omega) same.symm
      subst equal
      rfl
    · rw [element_outside left, element_outside right]

theorem element_eq_null_iff (short : vs.length ≤ 2 ^ 53) :
    element vs (.integer n inRange) = .null ↔
      ∀ i : ℕ, (Number.integer n inRange).toFinite.toRat = i → vs[i]?.getD .null = .null := by
  constructor
  · intro null i is_i
    -- Elements end before 2^53, where the only integer with the double of `i` is `i`.
    by_cases inside : i < vs.length
    · have small : (i : Int).natAbs < 2 ^ 53 := by omega
      have same : (Number.integer i ⟨by omega, by omega⟩).toFinite.toRat =
          (Number.integer n inRange).toFinite.toRat := by
        rw [Number.toRat_of_small _ small.le, is_i]
        rfl
      have equal := Number.eq_of_toRat_eq small same
      subst equal
      rw [element_integer inside] at null
      simpa [inside] using null
    · simp [List.getElem?_eq_none (Nat.not_lt.1 inside)]
  · intro null
    by_cases inside : 0 ≤ n ∧ n < vs.length
    · obtain ⟨i, rfl⟩ := Int.eq_ofNat_of_zero_le inside.1
      have is_i := Number.toRat_of_small inRange (by omega)
      have found : i < vs.length := by omega
      have is_null := null i is_i
      rw [element_integer found]
      simpa [found] using is_null
    · exact element_outside inside

/-- Equal numbers select the same element if both are integers, if both are doubles, or if only null
is at their position. -/
theorem element_eq_iff {p q : Number} (short : vs.length ≤ 2 ^ 53)
    (same : p.toFinite.toRat = q.toFinite.toRat) :
    element vs p = element vs q ↔ p.isInteger = q.isInteger ∨
      ∀ i : ℕ, p.toFinite.toRat = i → vs[i]?.getD .null = .null := by
  cases p with
  | integer m inRange =>
      cases q with
      | integer n inRange' => exact iff_of_true (element_eq_of_toRat_eq short same) (.inl rfl)
      | float y =>
          rw [element_float, element_eq_null_iff short]
          simp [Number.isInteger]
  | float x =>
      cases q with
      | integer n inRange =>
          rw [element_float, eq_comm, element_eq_null_iff short, same]
          simp [Number.isInteger]
      | float y => exact iff_of_true rfl (.inl rfl)

end Value

namespace Expr

variable {scope : Scope} {object left right : Expr} {x : Value} {vs : List Value} {p q : Number}

/-- A double index selects null. Equal indices into a text or an array of at most 2^53 elements
therefore select the same if both are integers or both are doubles, and otherwise only if their
position is out of range or holds null. -/
theorem equal_index_iff (elements : x.Elements vs) (short : vs.length ≤ 2 ^ 53)
    (object_given : object.eval scope = .ok x) (left_given : left.eval scope = .ok (.number p))
    (right_given : right.eval scope = .ok (.number q))
    (equal : (binary .strictEqual left right).eval scope = .ok (.bool true)) :
    (p.isInteger = false → (member object left).eval scope = .ok .null) ∧
    ((member object left).eval scope = (member object right).eval scope ↔
      p.isInteger = q.isInteger ∨
        ∀ i : ℕ, p.toFinite.toRat = i → vs[i]?.getD .null = .null) := by
  rw [eval_binary .strictEqual left_given right_given] at equal
  have same : p.toFinite.toRat = q.toFinite.toRat := by
    rw [Finite.toRat_eq_toRat_iff]
    exact beq_iff_eq.1 (BinaryOp.holds_strictEqual_iff.1 equal)
  rw [eval_index elements object_given left_given, eval_index elements object_given right_given,
    Except.ok.injEq, Except.ok.injEq, Value.element_eq_iff short same]
  refine ⟨fun double => ?_, Iff.rfl⟩
  cases p with
  | integer n inRange => cases double
  | float x => exact Value.element_float x

end Expr

namespace Sample

open Formwork.Expr

def doubleOne : Finite := ⟨false, 1 * quantaPerUnit, representable_of_le (by decide)⟩

def indexData : Scope := fun name =>
  if name = "i" then some (.number (.float doubleOne)) else none

def writtenIndex : Expr := .literal (.ofInt 1)

def storedIndex : Expr := .variable "i"

theorem writtenIndex_given :
    writtenIndex.eval indexData = .ok (.number (.integer 1 (by decide))) := rfl

theorem storedIndex_given : storedIndex.eval indexData = .ok (.number (.float doubleOne)) := rfl

theorem writtenIndex_equal_storedIndex :
    (binary .strictEqual writtenIndex storedIndex).eval indexData = .ok (.bool true) := by
  have whole : doubleOne.Holds 1 := Finite.holds_natCast
  have integer : (Number.integer 1 (by decide)).toFinite.Holds 1 :=
    Number.toFinite_holds ⟨doubleOne, whole⟩
  rw [eval_binary .strictEqual writtenIndex_given storedIndex_given]
  exact BinaryOp.holds_strictEqual_iff.2 (beq_iff_eq.2 (integer.trans whole.symm))

/-- Out of range, both indices give null. -/
theorem equal_index_behind_end :
    (member (.literal (.string "é")) writtenIndex).eval indexData =
      (member (.literal (.string "é")) storedIndex).eval indexData := by
  have one : (Number.integer 1 (by decide)).toFinite.toRat = ((1 : Int) : ℚ) :=
    Number.toRat_of_small _ (by decide)
  refine (equal_index_iff (.string "é") (by simp) rfl writtenIndex_given storedIndex_given
    writtenIndex_equal_storedIndex).2.2 (.inr fun i is_i => ?_)
  have second : i = 1 := by exact_mod_cast is_i.symm.trans one
  simp [second]

/-- On a list of two texts the two indices differ. -/
theorem not_index_respects_equality :
    let texts : Expr := .literal (.array [.string "a", .string "b"])
    (binary .strictEqual writtenIndex storedIndex).eval indexData = .ok (.bool true) ∧
    (member texts writtenIndex).eval indexData = .ok (.string "b") ∧
    (member texts storedIndex).eval indexData = .ok .null := by
  intro texts
  have elements := Value.Elements.array [.string "a", .string "b"]
  refine ⟨writtenIndex_equal_storedIndex, ?_, ?_⟩
  · exact eval_index elements rfl writtenIndex_given
  · exact eval_index elements rfl storedIndex_given

end Sample

end Formwork
