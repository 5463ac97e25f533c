import Formwork.Proofs.Number.Bits
import Formwork.Proofs.Number.Typed

/-!
# Numbers of doubles

A finite double converts to an integer when it is whole and below 2^63 in magnitude, and to itself
otherwise. The conversion is faithful, and infinities and NaN become null.
-/

namespace Formwork

variable {x : Finite} {n : Int}

/-- An integer that is exact as a double converts to that double, up to the sign of zero. -/
theorem Number.toFinite_holds {inRange : -9223372036854775808 ≤ n ∧ n < 18446744073709551616}
    (fits : Finite.Exact n) : (Number.integer n inRange).toFinite.Holds n := by
  obtain ⟨x, double, holds⟩ := Finite.exists_ofSignedQuanta fits.representable
  have same : Binary64.finite x = .finite (Number.integer n inRange).toFinite :=
    double.symm.trans (Number.ofInt_eq_toFinite n inRange)
  cases same
  exact holds

namespace Value

theorem ofBinary64_of_holds (holds : x.Holds n) (small : n.natAbs < 9223372036854775808) :
    ∃ inRange, ofBinary64 (.finite x) = .number (.integer n inRange) := by
  have truncated := holds.truncate_eq
  have whole : x.isIntegral = true ∧ -9223372036854775808 < x.truncate ∧
      x.truncate < 9223372036854775808 := by
    rw [truncated]
    exact ⟨holds.isIntegral, by omega, by omega⟩
  subst truncated
  rw [ofBinary64, dif_pos whole]
  exact ⟨_, rfl⟩

theorem ofBinary64_of_large (large : ∀ n, x.Holds n → 9223372036854775808 ≤ n.natAbs) :
    ofBinary64 (.finite x) = .number (.float x) := by
  rw [ofBinary64, dif_neg]
  rintro ⟨integral, bounds⟩
  have := large _ (Finite.holds_truncate integral)
  omega

theorem exists_number_ofBinary64 (x : Finite) : ∃ n : Number,
    ofBinary64 (.finite x) = .number n ∧ n.toFinite.toRat = x.toRat ∧
    ((∃ i inRange, n = .integer i inRange) ↔ ∃ i : ℤ, x.toRat = i ∧ |i| < 2 ^ 63) ∧
    (∀ i inRange, n = .integer i inRange → x.toRat = i) ∧
    ofBinary64 (.finite n.toFinite) = .number n := by
  by_cases small : ∃ i, x.Holds i ∧ i.natAbs < 9223372036854775808
  · obtain ⟨i, holds, below⟩ := small
    obtain ⟨inRange, whole⟩ := ofBinary64_of_holds holds below
    have read : (Number.integer i inRange).toFinite.Holds i := Number.toFinite_holds ⟨x, holds⟩
    obtain ⟨_, again⟩ := ofBinary64_of_holds read below
    have is_i : x.toRat = i := Finite.holds_iff_toRat.1 holds
    refine ⟨.integer i inRange, whole, (Finite.holds_iff_toRat.1 read).trans is_i.symm, ?_, ?_, again⟩
    · exact iff_of_true ⟨i, inRange, rfl⟩ ⟨i, is_i, by rw [Int.abs_eq_natAbs]; omega⟩
    · rintro _ _ ⟨⟩
      exact is_i
  · have large (i : ℤ) (holds : x.Holds i) : 9223372036854775808 ≤ i.natAbs := by
      by_contra below
      exact small ⟨i, holds, by omega⟩
    have itself := ofBinary64_of_large large
    refine ⟨.float x, itself, rfl, iff_of_false ?_ ?_, ?_, itself⟩
    · rintro ⟨_, _, ⟨⟩⟩
    · rintro ⟨i, is_i, below⟩
      have := large i (Finite.holds_iff_toRat.2 is_i)
      rw [Int.abs_eq_natAbs] at below
      omega
    · rintro _ _ ⟨⟩

/-- Conversion of doubles is faithful. Infinities and NaN become null; any other double becomes the
number it denotes, an exact integer if it is integral and below 2^63 in magnitude, and a double
otherwise. It converts back to the same number, and again to the same value. -/
theorem ofBinary64_faithful (bits : Nat) :
    (ofBinary64 (.ofBits bits) = .null ↔ Bits.exponent bits = 2047) ∧
    (Bits.exponent bits ≠ 2047 → ∃ n : Number,
      ofBinary64 (.ofBits bits) = .number n ∧ n.toFinite.toRat = Bits.value bits ∧
      ((∃ i inRange, n = .integer i inRange) ↔ ∃ i : ℤ, Bits.value bits = i ∧ |i| < 2 ^ 63) ∧
      (∀ i inRange, n = .integer i inRange → Bits.value bits = i) ∧
      ofBinary64 (.finite n.toFinite) = .number n) := by
  by_cases finite : Bits.exponent bits = 2047
  · refine ⟨iff_of_true ?_ finite, fun other => absurd finite other⟩
    rcases Binary64.ofBits_of_not_finite finite with nan | infinite
    · rw [nan]
      rfl
    · rw [infinite]
      rfl
  · rw [Binary64.ofBits_of_finite finite, ← Bits.toRat_eq_value finite]
    obtain ⟨n, becomes, facts⟩ := exists_number_ofBinary64
      ⟨Bits.negative bits, Bits.quanta bits, Bits.representable_quanta finite⟩
    refine ⟨iff_of_false ?_ finite, fun _ => ⟨n, becomes, facts⟩⟩
    rw [becomes]
    exact nofun

end Value

end Formwork
