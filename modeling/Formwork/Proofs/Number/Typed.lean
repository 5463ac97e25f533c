import Mathlib.Data.List.TakeWhile
import Formwork.Proofs.Document.Written
import Formwork.Proofs.Number.Exact

/-!
# Typed integers

The integer reading of a 64-bit integer is the integer itself in the signed range and its nearest
double beyond. Its text is read by sign and magnitude, with the same result except for the least
signed integer, whose magnitude is outside the signed range.
-/

namespace Formwork

/-! ## The double of an integer -/

theorem Finite.trunc_of_isIntegral {x : Finite} (integral : x.isIntegral = true) :
    x.trunc = .finite x := by
  have whole : x.quanta / quantaPerUnit * quantaPerUnit = x.quanta :=
    Nat.div_mul_cancel (Nat.dvd_of_mod_eq_zero (by simpa [isIntegral] using integral))
  simp only [trunc, whole]
  exact Binary64.ofQuanta_of_exact x.representable x.negative Nat.one_pos (Nat.mul_one _).symm

theorem Binary64.ofInt_eq_ofQuanta (n : Int) :
    ofInt n = ofQuanta (decide (n < 0)) (n.natAbs * quantaPerUnit) 1 := by
  have sign : n * quantaPerUnit < 0 ↔ n < 0 := by
    have positive : (0 : ℤ) < quantaPerUnit := Int.natCast_pos.2 quantaPerUnit_pos
    exact ⟨fun h => by nlinarith, fun h => by nlinarith⟩
  rw [ofInt, ofSignedQuanta, Int.natAbs_mul, Int.natAbs_natCast, decide_eq_decide.2 sign]

theorem Decimal.toBinary64_natAbs (n : Int) :
    toBinary64 (decide (n < 0)) ⟨n.natAbs, 0⟩ = Binary64.ofInt n := by
  rw [Binary64.ofInt_eq_ofQuanta, toBinary64_whole]

theorem Number.ofInt_eq_toFinite (n : Int)
    (inRange : -9223372036854775808 ≤ n ∧ n < 18446744073709551616) :
    Binary64.ofInt n = .finite (Number.integer n inRange).toFinite := by
  have rep := (representable_whole_iff n.natAbs).2 (lt_overflow (by omega))
  obtain ⟨x, finite⟩ : ∃ x, Binary64.ofInt n = .finite x := by
    rw [Binary64.ofInt_eq_ofQuanta, Binary64.ofQuanta]
    exact ⟨_, dif_pos rep⟩
  have double : (Number.integer n inRange).toFinite = x := by
    unfold toFinite
    simp only [finite]
  rw [finite, double]

namespace Value

theorem isBlank_of_isDigit {c : Char} (digit : c.isDigit = true) : Text.isBlank c = false := by
  simp only [Char.isDigit, Bool.and_eq_true, decide_eq_true_eq] at digit
  have low : 48 ≤ c.toNat := digit.1
  have high : c.toNat ≤ 57 := digit.2
  simp [Text.isBlank]
  omega

open Written in
/-- The reading of an integer's text, by sign and magnitude. -/
theorem leadingInteger_toString (n : Int) :
    (Value.string (toString n)).leadingInteger = ofMagnitude (decide (n < 0)) n.natAbs := by
  have digits : (Nat.toDigits 10 n.natAbs).takeWhile Char.isDigit = Nat.toDigits 10 n.natAbs :=
    List.takeWhile_eq_self_iff.2 (Decimal.allDigits_toDigits n.natAbs)
  have signed : splitSign (numeral n) = (decide (n < 0), Nat.toDigits 10 n.natAbs) := by
    unfold numeral
    split
    · next negative => rw [splitSign, decide_eq_true negative]
    · next unsigned =>
      obtain ⟨c, cs, text, digit⟩ := exists_cons_toDigits n.natAbs
      rw [text, splitSign, decide_eq_false unsigned]
      · rintro _ ⟨⟩
        exact absurd digit (by decide)
      · rintro _ ⟨⟩
        exact absurd digit (by decide)
  have no_blank : Text.trimStart (numeral n) = numeral n := by
    obtain ⟨c, cs, text, number⟩ := exists_cons_numeral n
    rw [text]
    refine List.dropWhile_cons_of_neg ?_
    rcases number with rfl | digit
    · decide
    · rw [isBlank_of_isDigit digit]
      exact Bool.false_ne_true
  change leadingIntegerOfText (toString n) = _
  rw [leadingIntegerOfText, toList_toString, no_blank, signed]
  simp only [digits]
  rw [if_neg (by simp), Decimal.digitsValue_toDigits]

theorem leadingInteger_integer (n : Int)
    (inRange : -9223372036854775808 ≤ n ∧ n < 18446744073709551616) :
    (Value.number (.integer n inRange)).leadingInteger =
      if n < 9223372036854775808 then .number (.integer n inRange)
      else ofBinary64 (.ofInt n) := by
  have finite := Number.ofInt_eq_toFinite n inRange
  have double : ofBinary64 (Number.integer n inRange).toFinite.trunc = ofBinary64 (.ofInt n) := by
    rw [Finite.trunc_of_isIntegral (Binary64.isWhole_ofInt n _ finite), ← finite]
  rw [← double]
  rfl

theorem ofMagnitude_natAbs {n : Int} (small : n.natAbs < 9223372036854775808)
    (inRange : -9223372036854775808 ≤ n ∧ n < 18446744073709551616) :
    ofMagnitude (decide (n < 0)) n.natAbs = .number (.integer n inRange) := by
  have signed : (if decide (n < 0) = true then -(n.natAbs : Int) else n.natAbs) = n := by
    simp only [decide_eq_true_eq]
    omega
  rw [ofMagnitude, if_pos small, signed, ofInt, dif_pos inRange]

theorem ofMagnitude_large {n : Int} (large : 9223372036854775808 ≤ n.natAbs) :
    ofMagnitude (decide (n < 0)) n.natAbs = ofBinary64 (.ofInt n) := by
  rw [ofMagnitude, if_neg (Nat.not_lt.2 large), Decimal.toBinary64_natAbs]

theorem lt_of_ofBinary64_eq_integer {b : Binary64} {n : Int}
    {inRange : -9223372036854775808 ≤ n ∧ n < 18446744073709551616}
    (whole : ofBinary64 b = .number (.integer n inRange)) : -9223372036854775808 < n := by
  unfold ofBinary64 at whole
  split at whole
  · split at whole
    · next bounds =>
      cases whole
      exact bounds.2.1
    · cases whole
  · cases whole

/-- The text of an integer has the integer reading of the integer itself, except for the least
signed integer, whose text is read as a double. -/
theorem leadingInteger_toString_iff (n : Int)
    (inRange : -9223372036854775808 ≤ n ∧ n < 18446744073709551616) :
    (Value.string (toString n)).leadingInteger =
        (Value.number (.integer n inRange)).leadingInteger ↔
      n ≠ -9223372036854775808 := by
  rw [leadingInteger_toString, leadingInteger_integer]
  split
  · next signed =>
    by_cases least : n = -9223372036854775808
    · rw [ofMagnitude_large (by omega)]
      exact iff_of_false (fun same => (lt_of_ofBinary64_eq_integer same).ne' least)
        (not_not_intro least)
    · exact iff_of_true (ofMagnitude_natAbs (by omega) inRange) least
  · next unsigned => exact iff_of_true (ofMagnitude_large (by omega)) (by omega)

end Value

namespace Sample

open Value

/-- The largest unsigned integer is rounded to the same double as a text and as a number. -/
theorem leadingInteger_toString_largest :
    (toString (18446744073709551615 : Int) = "18446744073709551615") ∧
    (Value.string "18446744073709551615").leadingInteger =
      (Value.number (.integer 18446744073709551615 (by decide))).leadingInteger := by
  have text : toString (18446744073709551615 : Int) = "18446744073709551615" := by decide
  have same := (leadingInteger_toString_iff 18446744073709551615 (by decide)).2 (by decide)
  rw [text] at same
  exact ⟨text, same⟩

/-- The least signed integer is read exactly as a number, and as a double from its text. -/
theorem not_leadingInteger_toString :
    (¬∀ (n : Int) (inRange : -9223372036854775808 ≤ n ∧ n < 18446744073709551616),
      (Value.string (toString n)).leadingInteger =
        (Value.number (.integer n inRange)).leadingInteger) ∧
    (Value.string "-9223372036854775808").leadingInteger.text = "-9.223372036854776e+18" ∧
    (Value.ofInt (-9223372036854775808)).leadingInteger.text = "-9223372036854775808" := by
  refine ⟨fun alike => ?_, by decide +kernel, by decide +kernel⟩
  have same := alike (-9223372036854775808) (by decide)
  rw [leadingInteger_toString, ofMagnitude_large (by decide), leadingInteger_integer,
    if_pos (by decide)] at same
  exact Int.lt_irrefl _ (lt_of_ofBinary64_eq_integer same)

end Sample

end Formwork
