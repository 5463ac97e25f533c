import Mathlib.Algebra.Order.Field.Basic
import Mathlib.Algebra.Order.Field.Rat
import Mathlib.Tactic.FieldSimp
import Formwork.Proofs.Number.Rounding
import Formwork.Number.Notation

/-!
# Reading numbers back

The shortest decimal of a double is in the double's interval, and every decimal in the interval
rounds to the double.
-/

namespace Formwork

def Decimal.value (d : Decimal) : ℚ := d.digits * 10 ^ d.exponent

def Finite.Interval.Near (i : Finite.Interval) (v : ℚ) : Prop :=
  if i.closed then i.low ≤ 4 * (v * quantaPerUnit) ∧ 4 * (v * quantaPerUnit) ≤ i.high
  else i.low < 4 * (v * quantaPerUnit) ∧ 4 * (v * quantaPerUnit) < i.high

namespace Decimal

theorem ten_zpow_mul (e : ℤ) : (10 : ℚ) ^ e * 10 ^ (-e).toNat = 10 ^ e.toNat := by
  obtain ⟨n, rfl | rfl⟩ := Int.eq_nat_or_neg e
  · simp
  · simp

theorem value_mul (d : Decimal) : d.value * quantaPerUnit * (10 ^ (-d.exponent).toNat : ℕ) =
    (d.digits * 10 ^ d.exponent.toNat * quantaPerUnit : ℕ) := by
  have powers := ten_zpow_mul d.exponent
  push_cast
  rw [value, ← powers]
  ring

theorem value_five_pow {unit n : ℕ} (power : unit = 2 ^ n) (q : ℕ) :
    value ⟨q * 5 ^ n, -n⟩ = q / unit := by
  have ten : (10 : ℚ) ^ n = 2 ^ n * 5 ^ n := by
    rw [← mul_pow]
    norm_num
  rw [power, value, zpow_neg, zpow_natCast, ten]
  push_cast
  field_simp

end Decimal

namespace Finite

variable {i : Interval} {q num den : Nat} {v : ℚ}

theorem Interval.near_iff (positive : 0 < den) (fraction : v * quantaPerUnit * den = num) :
    i.Near v ↔ i.Has num den := by
  have positive' : (0 : ℚ) < den := by exact_mod_cast positive
  have quanta : v * quantaPerUnit = num / den := by
    rw [eq_div_iff positive'.ne', fraction]
  unfold Near Has
  rw [quanta]
  split
  · rw [← mul_div_assoc, le_div_iff₀ positive', div_le_iff₀ positive']
    norm_cast
  · rw [← mul_div_assoc, lt_div_iff₀ positive', div_lt_iff₀ positive']
    norm_cast

theorem Interval.near_decimal_iff (d : Decimal) :
    i.Near d.value ↔ i.Has (d.digits * 10 ^ d.exponent.toNat * quantaPerUnit)
      (10 ^ (-d.exponent).toNat) :=
  near_iff (Nat.pow_pos (by decide)) d.value_mul

/-- Decimals within the interval of a double have an exponent below the cut-off. -/
theorem exponent_le_of_has {d : Decimal} (rep : Representable q) (nonzero : q ≠ 0)
    (digits : d.digits ≠ 0)
    (has : (interval q).Has (d.digits * 10 ^ d.exponent.toNat * quantaPerUnit)
      (10 ^ (-d.exponent).toNat)) : d.exponent ≤ 400 := by
  by_contra large
  have upper := has.bounds.2
  have whole : (-d.exponent).toNat = 0 := by omega
  rw [whole, Nat.pow_zero, Nat.mul_one, interval_high] at upper
  have fits := spacing_le nonzero
  have finite := (Nat.log2_lt nonzero).1 rep.1
  obtain ⟨n, more⟩ : ∃ n, d.exponent.toNat = n + 401 := ⟨d.exponent.toNat - 401, by omega⟩
  have factor (c : ℕ) (split : 10 ^ d.exponent.toNat = 10 ^ n * c) :
      c ≤ d.digits * 10 ^ d.exponent.toNat := by
    rw [split, ← Nat.mul_assoc]
    exact Nat.le_mul_of_pos_left c
      (Nat.mul_pos (Nat.pos_of_ne_zero digits) (Nat.pow_pos (by decide)))
  have power := factor (10 ^ 401) (more ▸ pow_add 10 n 401)
  have quanta := Nat.mul_le_mul_right quantaPerUnit power
  have beyond : 6 * 2 ^ 2098 < 4 * (10 ^ 401 * quantaPerUnit) := by decide +kernel
  omega

theorem le_exponent_of_has {d : Decimal} (nonzero : q ≠ 0)
    (has : (interval q).Has (d.digits * 10 ^ d.exponent.toNat * quantaPerUnit)
      (10 ^ (-d.exponent).toNat)) : -400 - (d.digits.log2 : Int) ≤ d.exponent := by
  by_contra small
  have lower := has.bounds.1
  have whole : d.exponent.toNat = 0 := by omega
  rw [whole, Nat.pow_zero, Nat.mul_one] at lower
  have power : 10 ^ 401 * 2 ^ d.digits.log2 ≤ 10 ^ (-d.exponent).toNat := by
    calc 10 ^ 401 * 2 ^ d.digits.log2
      _ ≤ 10 ^ 401 * 10 ^ d.digits.log2 := by
        gcongr
        decide
      _ = 10 ^ (401 + d.digits.log2) := by rw [Nat.pow_add]
      _ ≤ 10 ^ (-d.exponent).toNat := Nat.pow_le_pow_right (by decide) (by omega)
  have fraction : 10 ^ (-d.exponent).toNat ≤ (interval q).low * 10 ^ (-d.exponent).toNat := by
    apply Nat.le_mul_of_pos_left
    have := two_mul_le_interval_low nonzero
    omega
  have digits : d.digits * quantaPerUnit ≤ 2 ^ (d.digits.log2 + 1) * quantaPerUnit :=
    Nat.mul_le_mul_right _ Nat.lt_log2_self.le
  have beyond : 8 * quantaPerUnit < 10 ^ 401 := by decide +kernel
  have scaled : 8 * quantaPerUnit * 2 ^ d.digits.log2 < 10 ^ 401 * 2 ^ d.digits.log2 :=
    Nat.mul_lt_mul_of_pos_right beyond (Nat.two_pow_pos _)
  have regrouped : 8 * quantaPerUnit * 2 ^ d.digits.log2 =
      4 * (2 ^ (d.digits.log2 + 1) * quantaPerUnit) := by ring
  omega

theorem digits_ne_zero_of_near {d : Decimal} (nonzero : q ≠ 0) (near : (interval q).Near d.value) :
    d.digits ≠ 0 := by
  intro zero
  have lower := ((Interval.near_decimal_iff d).1 near).bounds.1
  have positive : 0 < 10 ^ (-d.exponent).toNat := Nat.pow_pos (by decide)
  have := two_mul_le_interval_low nonzero
  rw [zero, Nat.zero_mul, Nat.zero_mul, Nat.mul_zero, Nat.le_zero, Nat.mul_eq_zero] at lower
  omega

/-- A decimal within the interval of a double rounds to that double. -/
theorem toBinary64_of_near {d : Decimal} (rep : Representable q) (nonzero : q ≠ 0)
    (near : (interval q).Near d.value) (negative : Bool) :
    d.toBinary64 negative = .finite ⟨negative, q, rep⟩ := by
  have has := (Interval.near_decimal_iff d).1 near
  have rounds : Binary64.ofQuanta negative (d.digits * 10 ^ d.exponent.toNat * quantaPerUnit)
      (10 ^ (-d.exponent).toNat) = .finite ⟨negative, q, rep⟩ := by
    have rounded := nearestQuanta_of_has rep nonzero (Nat.pow_pos (by decide)) has
    simp only [Binary64.ofQuanta, rounded, dif_pos rep]
  have digits := digits_ne_zero_of_near nonzero near
  have not_large := exponent_le_of_has rep nonzero digits has
  have not_small := le_exponent_of_has nonzero has
  rw [Decimal.toBinary64, if_neg digits, if_neg (by omega), if_neg (by omega)]
  split
  · next whole =>
    have no_fraction : (-d.exponent).toNat = 0 := by omega
    rw [no_fraction, Nat.pow_zero] at rounds
    exact rounds
  · next fraction =>
    have no_power : d.exponent.toNat = 0 := by omega
    rw [no_power, Nat.pow_zero, Nat.mul_one] at rounds
    exact rounds

theorem near_self (nonzero : q ≠ 0) : (interval q).Near (q / quantaPerUnit) := by
  have fraction : (q / quantaPerUnit : ℚ) * quantaPerUnit * (1 : ℕ) = (q : ℕ) := by
    rw [Nat.cast_one, mul_one]
    exact div_mul_cancel₀ _ (Nat.cast_ne_zero.2 quantaPerUnit_pos.ne')
  rw [Interval.near_iff Nat.one_pos fraction]
  have positive := spacing_pos q
  have lower := interval_low_lt nonzero
  have upper := interval_high q
  unfold Interval.Has
  split <;> omega

theorem inside_iff {c : Bool} {a b a' b' : Prop} [Decidable a] [Decidable b] [Decidable a']
    [Decidable b'] : (if c = true then decide a && decide b else decide a' && decide b') = true ↔
      if c = true then a ∧ b else a' ∧ b' := by
  cases c <;> simp

theorem near_of_onGrid {halfUp : Bool} {p : Int} {k : Nat} (found : onGrid halfUp i p = some k) :
    i.Near (Decimal.value ⟨k, p⟩) := by
  have unit (k : Nat) : 4 * (k * 10 ^ p.toNat * quantaPerUnit) =
      k * (4 * quantaPerUnit * 10 ^ p.toNat) := by ring
  rw [Interval.near_decimal_iff]
  simp only [Interval.Has, unit]
  simp only [onGrid] at found
  split at found
  · next lower upper =>
    cases found
    exact inside_iff.1 lower
  · next lower upper =>
    cases found
    exact inside_iff.1 upper
  · cases found
  · next lower upper =>
    split at found
    · cases found
      exact inside_iff.1 lower
    split at found
    · cases found
      exact inside_iff.1 upper
    split at found
    · cases found
      exact inside_iff.1 upper
    · cases found
      exact inside_iff.1 lower

theorem near_shortest (nonzero : q ≠ 0) (halfUp : Bool) :
    (interval q).Near (shortest halfUp q).value := by
  rcases shortest_cases halfUp q with ⟨p, k, hit, is_grid⟩ | is_expansion
  · rw [is_grid]
    exact near_of_onGrid hit
  · rw [is_expansion, Nat.pow_eq, Decimal.value_five_pow quantaPerUnit_eq]
    exact near_self nonzero

end Finite

end Formwork
