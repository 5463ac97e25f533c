import Formwork.Proofs.Number.Nearest

/-!
# Exact integers

Integers up to 2^53 in magnitude are doubles. Addition, multiplication, negation, exact division and
truncated remainder are exact while results stay in that range, whatever the signs of zeros.
-/

namespace Formwork

namespace Finite

def Holds (x : Finite) (n : Int) : Prop := x.signed = n * quantaPerUnit

variable {x y : Finite} {m n : Int}

theorem natAbs_signed (x : Finite) : x.signed.natAbs = x.quanta := by
  unfold signed
  split <;> simp

theorem signed_neg (x : Finite) : x.neg.signed = -x.signed := by
  cases h : x.negative <;> simp [signed, neg, h]

theorem intUnit_pos : (0 : Int) < quantaPerUnit := Int.natCast_pos.2 quantaPerUnit_pos

theorem Holds.quanta_eq (h : x.Holds n) : x.quanta = n.natAbs * quantaPerUnit := by
  rw [← natAbs_signed, h, Int.natAbs_mul, Int.natAbs_natCast]

theorem Holds.quanta_eq_zero_iff (h : x.Holds n) : x.quanta = 0 ↔ n = 0 := by
  rw [h.quanta_eq, Nat.mul_eq_zero, Int.natAbs_eq_zero]
  exact or_iff_left quantaPerUnit_pos.ne'

theorem holds_natCast {k : Nat} {rep : Representable (k * quantaPerUnit)} :
    (⟨false, k * quantaPerUnit, rep⟩ : Finite).Holds k := Nat.cast_mul k quantaPerUnit

theorem holds_of_mul {k : Int} (h : x.signed * k = n * quantaPerUnit * k) (nonzero : k ≠ 0) :
    x.Holds n := Int.eq_of_mul_eq_mul_right nonzero h

theorem holds_iff_toRat : x.Holds n ↔ x.toRat = n := by
  have unit : (quantaPerUnit : ℚ) ≠ 0 := Nat.cast_ne_zero.2 quantaPerUnit_pos.ne'
  have units : (n * quantaPerUnit : ℚ) = (n * quantaPerUnit : ℤ) := by
    rw [Int.cast_mul, Int.cast_natCast]
  rw [toRat, div_eq_iff unit, units, Int.cast_inj, Holds]

theorem Holds.isIntegral (h : x.Holds n) : x.isIntegral = true := by
  have units : x.quanta % quantaPerUnit = 0 := by
    rw [h.quanta_eq]
    exact Nat.mul_mod_left _ _
  simp [Finite.isIntegral, units]

theorem Holds.truncate_eq (h : x.Holds n) : x.truncate = n := by
  rw [truncate, h]
  exact Int.mul_tdiv_cancel n intUnit_pos.ne'

theorem holds_truncate (integral : x.isIntegral = true) : x.Holds x.truncate := by
  have units : (quantaPerUnit : Int) ∣ x.signed := by
    rw [Int.natCast_dvd, natAbs_signed]
    exact Nat.dvd_of_mod_eq_zero (by simpa [isIntegral] using integral)
  exact (Int.tdiv_mul_cancel units).symm

end Finite

/-! ## Results on the grid -/

/-- What is on the grid is not rounded. -/
theorem nearestQuanta_of_exact {q num den : Nat} (rep : Representable q) (positive : 0 < den)
    (exact_quotient : num = q * den) : nearestQuanta num den = q := by
  have closest := nearestQuanta_closest num positive rep.2
  have positive' : (den : ℚ) ≠ 0 := Nat.cast_ne_zero.2 positive.ne'
  have quotient : (num / den : ℚ) = q := by
    rw [exact_quotient, Nat.cast_mul, mul_div_cancel_right₀ _ positive']
  rw [quotient, sub_self, abs_zero] at closest
  exact Nat.cast_inj.1 (sub_eq_zero.1 (abs_nonpos_iff.1 closest))

theorem representable_of_significand {k e top : Nat} (is_top : top = 2098) (bits : k ≤ 2 ^ 53)
    (small : k * 2 ^ e < 2 ^ top) : Representable (k * 2 ^ e) := by
  have spaced : spacing (2 ^ (52 + e)) = 2 ^ e := by
    rw [spacing_eq, Nat.log2_two_pow, Nat.add_sub_cancel_left]
  have binade : (2 ^ (52 + e)).log2 + 1 = 53 + e := by
    rw [Nat.log2_two_pow]
    omega
  refine (representable_iff is_top).2 ⟨?_, small⟩
  rw [← spaced]
  apply aligned_of_multiple
  rw [spaced, binade, Nat.pow_add]
  exact Nat.mul_le_mul_right _ bits

theorem representable_of_le {k : Nat} (small : k ≤ 2 ^ 53) :
    Representable (k * quantaPerUnit) := by
  have top : 53 + quantumExponent + 971 = 2098 := rfl
  rw [quantaPerUnit_eq]
  generalize quantumExponent = e at top
  apply representable_of_significand top small
  calc k * 2 ^ e
    _ ≤ 2 ^ 53 * 2 ^ e := Nat.mul_le_mul_right _ small
    _ = 2 ^ (53 + e) := (Nat.pow_add ..).symm
    _ < 2 ^ (53 + e + 971) := Nat.pow_lt_pow_right (by decide) (by omega)

namespace Binary64

theorem ofQuanta_of_exact {q num den : Nat} (rep : Representable q) (negative : Bool)
    (positive : 0 < den) (exact_quotient : num = q * den) :
    ofQuanta negative num den = .finite ⟨negative, q, rep⟩ := by
  simp [ofQuanta, nearestQuanta_of_exact rep positive exact_quotient, rep]

theorem exists_ofSignedQuanta {s : Int} (rep : Representable s.natAbs) :
    ∃ x, ofSignedQuanta s = .finite x ∧ x.signed = s := by
  refine ⟨_, ofQuanta_of_exact rep _ Nat.one_pos (Nat.mul_one _).symm, ?_⟩
  simp only [Finite.signed, decide_eq_true_eq]
  omega

end Binary64

/-! ## Arithmetic -/

namespace Finite

variable {x y : Finite} {m n k : Int}

def Exact (n : Int) : Prop := ∃ x : Finite, x.Holds n

theorem Exact.representable (fits : Exact n) : Representable (n.natAbs * quantaPerUnit) := by
  obtain ⟨x, h⟩ := fits
  rw [← h.quanta_eq]
  exact x.representable

theorem exists_ofSignedQuanta (rep : Representable (n.natAbs * quantaPerUnit)) :
    ∃ x, Binary64.ofSignedQuanta (n * quantaPerUnit) = .finite x ∧ x.Holds n := by
  apply Binary64.exists_ofSignedQuanta
  rwa [Int.natAbs_mul, Int.natAbs_natCast]

theorem exact_of_le (small : n.natAbs ≤ 2 ^ 53) : Exact n := by
  obtain ⟨x, -, h⟩ := exists_ofSignedQuanta (representable_of_le small)
  exact ⟨x, h⟩

theorem signed_mul_of_eq {q d : Nat} {rep : Representable q} (h : q * d = x.quanta * y.quanta) :
    (⟨x.negative != y.negative, q, rep⟩ : Finite).signed * d = x.signed * y.signed := by
  have h' : (q * d : Int) = x.quanta * y.quanta := by exact_mod_cast h
  cases hx : x.negative <;> cases hy : y.negative <;> simp [signed, hx, hy, h']

theorem signed_div_of_eq {q d : Nat} {rep : Representable q} (h : q * y.quanta = x.quanta * d) :
    (⟨x.negative != y.negative, q, rep⟩ : Finite).signed * y.signed = x.signed * d := by
  have h' : (q * y.quanta : Int) = x.quanta * d := by exact_mod_cast h
  cases hx : x.negative <;> cases hy : y.negative <;> simp [signed, hx, hy, h']

theorem signed_rem {rep : Representable (x.quanta % y.quanta)} :
    (⟨x.negative, x.quanta % y.quanta, rep⟩ : Finite).signed = x.signed.tmod y.signed := by
  cases hx : x.negative <;> cases hy : y.negative <;>
    simp [signed, hx, hy, Int.neg_tmod, Int.tmod_neg, Int.tmod_eq_emod_of_nonneg]

theorem Holds.neg (hx : x.Holds m) : x.neg.Holds (-m) := by
  rw [Holds, signed_neg, hx, Int.neg_mul]

theorem Holds.add (hx : x.Holds m) (hy : y.Holds n) (fits : Exact (m + n)) :
    ∃ z, x.add y = .finite z ∧ z.Holds (m + n) := by
  have sum : x.signed + y.signed = (m + n) * quantaPerUnit := by
    rw [hx, hy, Int.add_mul]
  unfold Finite.add
  split
  · next zero =>
    refine ⟨_, rfl, ?_⟩
    rw [Holds, ← sum, zero, ← Int.natAbs_eq_zero]
    exact natAbs_signed _
  · rw [sum]
    exact exists_ofSignedQuanta fits.representable

theorem Holds.sub (hx : x.Holds m) (hy : y.Holds n) (fits : Exact (m - n)) :
    ∃ z, x.sub y = .finite z ∧ z.Holds (m - n) := hx.add hy.neg fits

theorem Holds.mul (hx : x.Holds m) (hy : y.Holds n) (fits : Exact (m * n)) :
    ∃ z, x.mul y = .finite z ∧ z.Holds (m * n) := by
  have product : x.quanta * y.quanta = (m * n).natAbs * quantaPerUnit * quantaPerUnit := by
    rw [hx.quanta_eq, hy.quanta_eq, Int.natAbs_mul]
    ring
  refine ⟨_, Binary64.ofQuanta_of_exact fits.representable _ quantaPerUnit_pos product, ?_⟩
  apply holds_of_mul _ intUnit_pos.ne'
  rw [signed_mul_of_eq product.symm, hx, hy]
  ring

theorem Holds.div (hx : x.Holds (n * k)) (hy : y.Holds n) (nonzero : n ≠ 0) (fits : Exact k) :
    ∃ z, x.div y = .finite z ∧ z.Holds k := by
  have divisor : y.quanta ≠ 0 := mt hy.quanta_eq_zero_iff.1 nonzero
  have quotient : x.quanta * quantaPerUnit = k.natAbs * quantaPerUnit * y.quanta := by
    rw [hx.quanta_eq, hy.quanta_eq, Int.natAbs_mul]
    ring
  unfold Finite.div
  rw [if_neg divisor]
  refine ⟨_, Binary64.ofQuanta_of_exact fits.representable _ (Nat.pos_of_ne_zero divisor) quotient, ?_⟩
  have signed_y : y.signed ≠ 0 := by
    rw [hy]
    exact Int.mul_ne_zero nonzero intUnit_pos.ne'
  apply holds_of_mul _ signed_y
  rw [signed_div_of_eq quotient.symm, hx, hy]
  ring

theorem Holds.rem (hx : x.Holds m) (hy : y.Holds n) (nonzero : n ≠ 0) (fits : Exact (m.tmod n)) :
    ∃ z, x.rem y = .finite z ∧ z.Holds (m.tmod n) := by
  have divisor : y.quanta ≠ 0 := mt hy.quanta_eq_zero_iff.1 nonzero
  have rest : x.quanta % y.quanta = (m.tmod n).natAbs * quantaPerUnit := by
    rw [hx.quanta_eq, hy.quanta_eq, Nat.mul_mod_mul_right, Int.natAbs_tmod]
  have rep : Representable (x.quanta % y.quanta) := rest ▸ fits.representable
  unfold Finite.rem
  rw [if_neg divisor]
  refine ⟨_, Binary64.ofQuanta_of_exact rep _ Nat.one_pos (Nat.mul_one _).symm, ?_⟩
  rw [Holds, signed_rem, hx, hy, Int.mul_comm m, Int.mul_comm n,
    Int.mul_tmod_mul_of_pos _ _ intUnit_pos, Int.mul_comm]

end Finite

end Formwork
