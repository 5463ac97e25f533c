import Formwork.Proofs.Number.Rounding
import Formwork.Value.LeadingInteger

/-!
# Whole numbers

Rounding preserves whole numbers: below 2^53 they are doubles, and above it all doubles are whole.
The integer reading of a value is therefore whole or null.
-/

namespace Formwork

theorem spacing_dvd_unit_or_unit_dvd (q : Nat) :
    spacing q ∣ quantaPerUnit ∨ quantaPerUnit ∣ spacing q := by
  rw [spacing_eq, quantaPerUnit_eq]
  rcases Nat.le_total (q.log2 - 52) quantumExponent with fine | coarse
  · exact .inl (Nat.pow_dvd_pow 2 fine)
  · exact .inr (Nat.pow_dvd_pow 2 coarse)

theorem unit_dvd_nearestQuanta (k : Nat) :
    quantaPerUnit ∣ nearestQuanta (k * quantaPerUnit) 1 := by
  have rounded := spacing_dvd_unit_or_unit_dvd (k * quantaPerUnit)
  simp only [nearestQuanta, Nat.div_one, Nat.one_mul]
  generalize spacing (k * quantaPerUnit) = s at rounded
  rcases rounded with fine | coarse
  · have on_grid : s ∣ k * quantaPerUnit := fine.mul_left k
    have exact_quotient : k * quantaPerUnit / s * s = k * quantaPerUnit := Nat.div_mul_cancel on_grid
    have no_rest : k * quantaPerUnit % s = 0 := Nat.mod_eq_zero_of_dvd on_grid
    have positive : 0 < s := Nat.pos_of_dvd_of_pos fine quantaPerUnit_pos
    rw [no_rest, if_pos (by simp [positive]), exact_quotient]
    exact Nat.dvd_mul_left _ _
  · split
    · exact coarse.mul_left _
    · exact coarse.mul_left _

def Binary64.IsWhole (b : Binary64) : Prop := ∀ x, b = .finite x → x.isIntegral = true

theorem Binary64.isWhole_ofQuanta (negative : Bool) (k : Nat) :
    (ofQuanta negative (k * quantaPerUnit) 1).IsWhole := by
  intro x is_finite
  simp only [ofQuanta] at is_finite
  split at is_finite
  · cases is_finite
    simpa [Finite.isIntegral] using Nat.mod_eq_zero_of_dvd (unit_dvd_nearestQuanta k)
  · cases is_finite

theorem Binary64.isWhole_ofInt (n : Int) : (Binary64.ofInt n).IsWhole := by
  rw [ofInt, ofSignedQuanta, Int.natAbs_mul, Int.natAbs_natCast]
  exact isWhole_ofQuanta _ _

theorem Decimal.toBinary64_whole (negative : Bool) (n : Nat) :
    toBinary64 negative ⟨n, 0⟩ = .ofQuanta negative (n * quantaPerUnit) 1 := by
  rw [toBinary64]
  split
  · next zero => rw [show n = 0 from zero, Nat.zero_mul]
  · rw [if_neg (by simp), if_neg (by simp), if_pos (Int.le_refl 0)]
    simp

theorem Binary64.isWhole_toBinary64 (negative : Bool) (n : Nat) :
    (Decimal.toBinary64 negative ⟨n, 0⟩).IsWhole := by
  rw [Decimal.toBinary64_whole]
  exact isWhole_ofQuanta negative n

theorem Binary64.isWhole_trunc (x : Finite) : x.trunc.IsWhole := isWhole_ofQuanta _ _

namespace Value

/-- Null, or a number without a fraction. -/
def IsWhole : Value → Prop
  | .null => True
  | .number (.integer _ _) => True
  | .number (.float x) => x.isIntegral = true
  | _ => False

/-- Null, an integer in the signed range, or a whole double beyond it. -/
inductive Settled : Value → Prop where
  | null : Settled .null
  | integer (n : Int) (inRange : -9223372036854775808 ≤ n ∧ n < 18446744073709551616)
      (signed : n < 9223372036854775808) : Settled (.number (.integer n inRange))
  | float (x : Finite) (integral : x.isIntegral = true)
      (beyond : ¬(-9223372036854775808 < x.truncate ∧ x.truncate < 9223372036854775808)) :
      Settled (.number (.float x))

theorem Settled.isWhole {v : Value} (settled : v.Settled) : v.IsWhole := by
  cases settled with
  | null => trivial
  | integer => trivial
  | float x integral => exact integral

theorem settled_ofBinary64 {b : Binary64} (whole : b.IsWhole) : (ofBinary64 b).Settled := by
  unfold ofBinary64
  split
  · next x =>
    have integral := whole x rfl
    split
    · next signed => exact .integer _ _ signed.2.2
    · next beyond => exact .float x integral fun signed => beyond ⟨integral, signed⟩
  · exact .null

theorem settled_ofInt {n : Int} (signed : n < 9223372036854775808) : (ofInt n).Settled := by
  unfold ofInt
  split
  · exact .integer n _ signed
  · exact settled_ofBinary64 (Binary64.isWhole_ofInt n)

theorem settled_ofMagnitude (negative : Bool) (n : Nat) : (ofMagnitude negative n).Settled := by
  unfold ofMagnitude
  split
  · next small =>
    apply settled_ofInt
    split <;> omega
  · exact settled_ofBinary64 (Binary64.isWhole_toBinary64 _ _)

theorem settled_leadingInteger (v : Value) : v.leadingInteger.Settled := by
  unfold leadingInteger
  split
  · next n _ =>
    cases n with
    | integer n inRange =>
        simp only [leadingIntegerOfNumber]
        split
        · next signed => exact .integer n inRange signed
        · exact settled_ofBinary64 (Binary64.isWhole_trunc _)
    | float x => exact settled_ofBinary64 (Binary64.isWhole_trunc x)
  · next s _ =>
    simp only [leadingIntegerOfText]
    split
    · exact .null
    · exact settled_ofMagnitude _ _
  · exact .null

/-- The integer reading of a value is null or an integral number. -/
theorem isWhole_leadingInteger (v : Value) : v.leadingInteger.IsWhole :=
  v.settled_leadingInteger.isWhole

end Value

end Formwork
