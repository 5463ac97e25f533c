import Formwork.Proofs.Number.Exact

/-!
# Doubles from bits

The 64 bits of a double: sign, exponent of eleven bits, fraction of 52. An exponent of all ones
denotes an infinity or NaN; all other bits are converted exactly.
-/

namespace Formwork

namespace Bits

def negative (bits : Nat) : Bool := bits / 2 ^ 63 % 2 == 1

def exponent (bits : Nat) : Nat := bits / 2 ^ 52 % 2 ^ 11

def fraction (bits : Nat) : Nat := bits % 2 ^ 52

/-- The magnitude of the number; subnormals have no hidden bit. -/
def magnitude (bits : Nat) : ℚ :=
  if exponent bits = 0 then fraction bits * 2 ^ (-1074 : ℤ)
  else (2 ^ 52 + fraction bits) * 2 ^ (exponent bits - 1075 : ℤ)

/-- The number that the bits of a finite double denote. -/
def value (bits : Nat) : ℚ := Finite.withSign (negative bits) (magnitude bits)

def quanta (bits : Nat) : Nat :=
  if exponent bits = 0 then fraction bits else (2 ^ 52 + fraction bits) * 2 ^ (exponent bits - 1)

variable {bits : Nat}

theorem fraction_lt (bits : Nat) : fraction bits < 2 ^ 52 := Nat.mod_lt _ (Nat.two_pow_pos 52)

theorem representable_quanta (finite : exponent bits ≠ 2047) : Representable (quanta bits) := by
  obtain ⟨t, top⟩ : ∃ t, t = 2098 := ⟨_, rfl⟩
  have below := fraction_lt bits
  have field : exponent bits < 2 ^ 11 := Nat.mod_lt _ (Nat.two_pow_pos 11)
  unfold quanta
  generalize exponent bits = e at *
  generalize fraction bits = f at *
  split
  · have small : f * 2 ^ 0 < 2 ^ t := by
      rw [Nat.pow_zero, Nat.mul_one]
      exact below.trans (Nat.pow_lt_pow_right (by decide) (by omega))
    have rep := representable_of_significand top (by omega) small
    rwa [Nat.pow_zero, Nat.mul_one] at rep
  · apply representable_of_significand top (by omega)
    calc (2 ^ 52 + f) * 2 ^ (e - 1)
      _ < 2 ^ 53 * 2 ^ (e - 1) := Nat.mul_lt_mul_of_pos_right (by omega) (Nat.two_pow_pos _)
      _ = 2 ^ (53 + (e - 1)) := (Nat.pow_add ..).symm
      _ ≤ 2 ^ t := Nat.pow_le_pow_right (by decide) (by omega)

theorem quanta_div_unit (bits : Nat) : (quanta bits / quantaPerUnit : ℚ) = magnitude bits := by
  have unit : (quantaPerUnit : ℚ) = 2 ^ (1074 : ℤ) := by
    rw [quantaPerUnit_eq, Nat.cast_pow, ← zpow_natCast]
    rfl
  unfold quanta magnitude
  rw [unit]
  split
  · rw [div_eq_mul_inv, ← zpow_neg]
  · next normal =>
    have shift : (2 ^ (exponent bits - 1) : ℚ) = 2 ^ (exponent bits - 1 : ℤ) := by
      rw [← zpow_natCast, Nat.cast_sub (Nat.one_le_iff_ne_zero.2 normal), Nat.cast_one]
    have together : (exponent bits - 1 - 1074 : ℤ) = exponent bits - 1075 := by omega
    rw [Nat.cast_mul, Nat.cast_add, Nat.cast_pow, Nat.cast_pow, Nat.cast_two, shift, mul_div_assoc,
      ← zpow_sub₀ two_ne_zero, together]

theorem toRat_eq_value (finite : exponent bits ≠ 2047) :
    (⟨negative bits, quanta bits, representable_quanta finite⟩ : Finite).toRat = value bits := by
  rw [Finite.toRat_eq, Finite.withSign_div, quanta_div_unit, value]

end Bits

namespace Binary64

variable {bits : Nat}

theorem ofBits_eq (bits : Nat) :
    ofBits bits = if Bits.exponent bits = 2047 then
        if Bits.fraction bits = 0 then .infinite (Bits.negative bits) else .nan
      else ofQuanta (Bits.negative bits) (Bits.quanta bits) 1 := by
  unfold Bits.quanta Bits.negative Bits.exponent Bits.fraction
  simp only [ofBits, Nat.pow_eq, beq_iff_eq]
  by_cases special : bits / 2 ^ 52 % 2 ^ 11 = 2047
  · simp only [if_pos special]
  · by_cases least : bits / 2 ^ 52 % 2 ^ 11 = 0
    · simp only [if_neg special, if_pos least]
    · simp only [if_neg special, if_neg least]

theorem ofBits_of_finite (finite : Bits.exponent bits ≠ 2047) :
    ofBits bits =
      .finite ⟨Bits.negative bits, Bits.quanta bits, Bits.representable_quanta finite⟩ := by
  rw [ofBits_eq, if_neg finite]
  exact ofQuanta_of_exact _ _ Nat.one_pos (Nat.mul_one _).symm

theorem ofBits_of_not_finite (not_finite : Bits.exponent bits = 2047) :
    ofBits bits = .nan ∨ ofBits bits = .infinite (Bits.negative bits) := by
  rw [ofBits_eq, if_pos not_finite]
  by_cases zero : Bits.fraction bits = 0
  · simp [zero]
  · simp [zero]

end Binary64

end Formwork
