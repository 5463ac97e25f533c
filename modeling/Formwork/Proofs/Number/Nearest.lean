import Mathlib.Algebra.Order.Field.Basic
import Mathlib.Algebra.Order.Field.Rat
import Mathlib.Tactic.Linarith
import Mathlib.Tactic.Positivity
import Mathlib.Tactic.Ring
import Formwork.Proofs.Number.Whole

/-!
# Rounding to the nearest double

Adjacent grid points of a binade have no double between them, so the nearer one is the nearest
double. Numbers at least half a spacing above the largest double round to infinity.
-/

namespace Formwork

/-- A multiple of the spacing, without the bound of `Representable`. -/
def Aligned (q : Nat) : Prop := q % spacing q = 0

def Finite.toRat (x : Finite) : ℚ := x.signed / quantaPerUnit

/-- The significand is even. -/
def EvenlyAligned (q : Nat) : Prop := 2 * spacing q ∣ q

/-- No double is closer to `v`, and a tie is broken towards the even significand. -/
structure Finite.IsNearest (x : Finite) (v : ℚ) : Prop where
  closest (y : Finite) : |x.toRat - v| ≤ |y.toRat - v|
  even (y : Finite) : y.toRat ≠ x.toRat → |y.toRat - v| = |x.toRat - v| → EvenlyAligned x.quanta

section Grid

variable {num den q r t : Nat}

theorem spacing_dvd_spacing (below : t.log2 ≤ r.log2) : spacing t ∣ spacing r :=
  Nat.pow_dvd_pow 2 (Nat.sub_le_sub_right below 52)

theorem binade_le_lower (nonzero : t ≠ 0) : 2 ^ t.log2 ≤ t / spacing t * spacing t := by
  obtain ⟨a, start⟩ := spacing_dvd_binade t
  rw [start, Nat.mul_comm]
  refine Nat.mul_le_mul_right _ ((Nat.le_div_iff_mul_le (spacing_pos t)).2 ?_)
  rw [Nat.mul_comm, ← start]
  exact Nat.log2_self_le nonzero

theorem upper_le_binade (t : Nat) : (t / spacing t + 1) * spacing t ≤ 2 ^ (t.log2 + 1) := by
  obtain ⟨a, start⟩ := spacing_dvd_binade t
  have next : 2 ^ (t.log2 + 1) = 2 * a * spacing t := by
    rw [Nat.pow_succ, start]
    ring
  have inside : t < 2 ^ (t.log2 + 1) := Nat.lt_log2_self
  rw [next] at inside ⊢
  exact Nat.mul_le_mul_right _ ((Nat.div_lt_iff_lt_mul (spacing_pos t)).2 inside)

/-- No grid point lies strictly between the two neighbours of a number. -/
theorem Aligned.le_or_le (grid : Aligned r) (t : Nat) :
    r ≤ t / spacing t * spacing t ∨ (t / spacing t + 1) * spacing t ≤ r := by
  by_contra! between
  obtain ⟨above, below⟩ := between
  have level : t.log2 ≤ r.log2 := by
    by_cases zero : t = 0
    · rw [zero, Nat.log2_zero]
      exact Nat.zero_le _
    · exact (Nat.le_log2 (by omega)).2 ((binade_le_lower zero).trans above.le)
  obtain ⟨m, multiple⟩ := (spacing_dvd_spacing level).trans (Nat.dvd_of_mod_eq_zero grid)
  rw [multiple, Nat.mul_comm (spacing t) m] at above below
  have more := Nat.lt_of_mul_lt_mul_right above
  have less := Nat.lt_of_mul_lt_mul_right below
  omega

theorem log2_le_or_eq {l : Nat} (upper : q ≤ 2 ^ (l + 1)) : q.log2 ≤ l ∨ q = 2 ^ (l + 1) := by
  by_cases zero : q = 0
  · exact .inl (by rw [zero, Nat.log2_zero]; exact Nat.zero_le _)
  · rcases Nat.lt_or_eq_of_le upper with inside | next
    · exact .inl (Nat.le_of_lt_succ ((Nat.log2_lt zero).2 inside))
    · exact .inr next

theorem aligned_two_pow (l : Nat) : Aligned (2 ^ l) := by
  rw [Aligned, spacing_eq, Nat.log2_two_pow]
  exact Nat.mod_eq_zero_of_dvd (Nat.pow_dvd_pow 2 (Nat.sub_le _ _))

section Multiple

variable {m : Nat} (upper : m * spacing t ≤ 2 ^ (t.log2 + 1))
include upper

theorem aligned_of_multiple : Aligned (m * spacing t) := by
  rcases log2_le_or_eq upper with level | next
  · exact Nat.mod_eq_zero_of_dvd ((spacing_dvd_spacing level).mul_left m)
  · rw [next]
    exact aligned_two_pow _

theorem evenlyAligned_of_multiple (even : 2 ∣ m) : EvenlyAligned (m * spacing t) := by
  rcases log2_le_or_eq upper with level | next
  · exact Nat.mul_dvd_mul even (spacing_dvd_spacing level)
  · rw [next, EvenlyAligned, spacing_eq, Nat.log2_two_pow, Nat.mul_comm, ← Nat.pow_succ]
    exact Nat.pow_dvd_pow 2 (by omega)

end Multiple

/-- A number is its lower neighbour plus a fraction of the spacing; it rounds to the nearer
neighbour, and ties to even. -/
theorem exists_step (num : Nat) (positive : 0 < den) :
    let s := spacing (num / den)
    let k := num / den / s
    ∃ f : ℚ, (num / den : ℚ) = k * s + f ∧ 0 ≤ f ∧ f < s ∧
      ((nearestQuanta num den = k * s ∧ 2 * f ≤ s ∧ (2 * f = s → k % 2 = 0)) ∨
        (nearestQuanta num den = (k + 1) * s ∧ s ≤ 2 * f ∧ (2 * f = s → k % 2 = 1))) := by
  intro s k
  have spaced : 0 < s := spacing_pos _
  have quotient : num / (den * s) = k := (Nat.div_div_eq_div_mul num den s).symm
  have rounded : nearestQuanta num den = if 2 * (num % (den * s)) < den * s ||
      (2 * (num % (den * s)) == den * s && k % 2 == 0) then k * s else (k + 1) * s := by
    rw [← quotient]
    rfl
  have parts : den * s * k + num % (den * s) = num := quotient ▸ Nat.div_add_mod num (den * s)
  have inside : num % (den * s) < den * s := Nat.mod_lt _ (Nat.mul_pos positive spaced)
  generalize num % (den * s) = rest at rounded parts inside
  have positive' : (0 : ℚ) < den := Nat.cast_pos.2 positive
  have scale : (rest / den : ℚ) * den = rest := div_mul_cancel₀ _ positive'.ne'
  have le_iff : 2 * (rest / den : ℚ) ≤ s ↔ 2 * rest ≤ den * s := by
    rw [← mul_div_assoc, div_le_iff₀ positive', mul_comm (s : ℚ)]
    norm_cast
  have ge_iff : s ≤ 2 * (rest / den : ℚ) ↔ den * s ≤ 2 * rest := by
    rw [← mul_div_assoc, le_div_iff₀ positive', mul_comm (s : ℚ)]
    norm_cast
  have tie : 2 * (rest / den : ℚ) = s → 2 * rest = den * s := fun tie =>
    le_antisymm (le_iff.1 tie.le) (ge_iff.1 tie.ge)
  refine ⟨rest / den, ?_, by positivity, ?_, ?_⟩
  · rw [div_eq_iff positive'.ne', add_mul, scale, ← parts]
    push_cast
    ring
  · rw [div_lt_iff₀ positive', mul_comm]
    exact_mod_cast inside
  · rw [rounded, le_iff, ge_iff]
    split
    · next down =>
      simp only [Bool.or_eq_true, Bool.and_eq_true, decide_eq_true_eq, beq_iff_eq] at down
      exact .inl ⟨rfl, by omega, fun even => by have := tie even; omega⟩
    · next up =>
      simp only [Bool.or_eq_true, Bool.and_eq_true, decide_eq_true_eq, beq_iff_eq] at up
      exact .inr ⟨rfl, by omega, fun odd => by have := tie odd; omega⟩

theorem nearestQuanta_le_binade (num : Nat) (positive : 0 < den) :
    nearestQuanta num den ≤ 2 ^ ((num / den).log2 + 1) := by
  obtain ⟨f, -, -, -, ⟨down, -⟩ | ⟨up, -⟩⟩ := exists_step num positive
  · rw [down]
    exact (Nat.mul_le_mul_right _ (Nat.le_succ _)).trans (upper_le_binade _)
  · rw [up]
    exact upper_le_binade _

theorem aligned_nearestQuanta (num : Nat) (positive : 0 < den) : Aligned (nearestQuanta num den) := by
  have upper := nearestQuanta_le_binade num positive
  obtain ⟨f, -, -, -, ⟨down, -⟩ | ⟨up, -⟩⟩ := exists_step num positive
  · rw [down] at upper ⊢
    exact aligned_of_multiple upper
  · rw [up] at upper ⊢
    exact aligned_of_multiple upper

/-- No magnitude on the grid is closer. -/
theorem nearestQuanta_closest (num : Nat) (positive : 0 < den) (grid : Aligned r) :
    |(nearestQuanta num den : ℚ) - num / den| ≤ |(r : ℚ) - num / den| := by
  obtain ⟨f, is, nonneg, small, rounds⟩ := exists_step num positive
  have apart := grid.le_or_le (num / den)
  rw [is]
  generalize spacing (num / den) = s at *
  generalize num / den / s = k at *
  have apart' : (r : ℚ) ≤ k * s ∨ (k + 1 : ℚ) * s ≤ r := by exact_mod_cast apart
  have distance : |(nearestQuanta num den : ℚ) - (k * s + f)| ≤ min f (s - f) := by
    rcases rounds with ⟨down, half, -⟩ | ⟨up, half, -⟩
    · rw [down, abs_le, min_eq_left (by linarith)]
      push_cast
      constructor <;> linarith
    · rw [up, abs_le, min_eq_right (by linarith)]
      push_cast
      constructor <;> linarith
  refine distance.trans ?_
  rcases apart' with below | above
  · exact (min_le_left _ _).trans (le_abs.2 (.inr (by linarith)))
  · exact (min_le_right _ _).trans (le_abs.2 (.inl (by linarith)))

theorem evenlyAligned_of_tie (num : Nat) (positive : 0 < den) (grid : Aligned r)
    (other : r ≠ nearestQuanta num den)
    (tie : |(r : ℚ) - num / den| = |(nearestQuanta num den : ℚ) - num / den|) :
    EvenlyAligned (nearestQuanta num den) := by
  obtain ⟨f, is, nonneg, small, rounds⟩ := exists_step num positive
  have apart := grid.le_or_le (num / den)
  have upper := upper_le_binade (num / den)
  have multiple {m : Nat} := @evenlyAligned_of_multiple (num / den) m
  rw [is] at tie
  generalize spacing (num / den) = s at *
  generalize num / den / s = k at *
  rcases rounds with ⟨down, half, even⟩ | ⟨up, half, odd⟩
  · rw [down] at tie other ⊢
    have above : (k + 1 : ℚ) * s ≤ r := by
      rcases apart with below | above
      · have strict : (r : ℚ) < k * s := by exact_mod_cast below.lt_of_ne other
        rw [abs_of_nonpos (by linarith), Nat.cast_mul, abs_of_nonpos (by linarith)] at tie
        linarith
      · exact_mod_cast above
    rw [abs_of_nonneg (by linarith), Nat.cast_mul, abs_of_nonpos (by linarith)] at tie
    exact multiple ((Nat.mul_le_mul_right _ (Nat.le_succ k)).trans upper)
      (Nat.dvd_of_mod_eq_zero (even (by linarith)))
  · rw [up] at tie other ⊢
    have below : (r : ℚ) ≤ k * s := by
      rcases apart with below | above
      · exact_mod_cast below
      · have strict : (k + 1 : ℚ) * s < r := by exact_mod_cast above.lt_of_ne' other
        rw [abs_of_nonneg (by linarith), Nat.cast_mul, Nat.cast_succ,
          abs_of_nonneg (by linarith)] at tie
        linarith
    rw [abs_of_nonpos (by linarith), Nat.cast_mul, Nat.cast_succ, abs_of_nonneg (by linarith)] at tie
    have last := odd (by linarith)
    exact multiple upper (by omega)

/-! ## The end of a binade -/

/-- The last magnitude on the grid before the binade that starts at `2 ^ (53 + e)`. -/
def lastBefore (e : Nat) : Nat := (2 ^ 53 - 1) * 2 ^ e

theorem spacing_lastBefore (e : Nat) : spacing (lastBefore e) = 2 ^ e := by
  have positive := Nat.two_pow_pos e
  have level : (lastBefore e).log2 = 52 + e := by
    apply log2_eq_of_between
    · rw [Nat.pow_add, lastBefore]
      omega
    · rw [Nat.add_right_comm, Nat.pow_add, lastBefore]
      omega
  rw [spacing_eq, level, Nat.add_sub_cancel_left]

theorem aligned_lastBefore (e : Nat) : Aligned (lastBefore e) := by
  rw [Aligned, spacing_lastBefore, lastBefore, Nat.mul_mod_left]

theorem not_evenlyAligned_lastBefore (e : Nat) : ¬EvenlyAligned (lastBefore e) := by
  rw [EvenlyAligned, spacing_lastBefore, lastBefore,
    Nat.mul_dvd_mul_iff_right (Nat.two_pow_pos e)]
  decide

theorem Aligned.le_lastBefore_or_le (grid : Aligned r) (e : Nat) :
    r ≤ lastBefore e ∨ 2 ^ (53 + e) ≤ r := by
  have apart := grid.le_or_le (lastBefore e)
  have steps : lastBefore e / 2 ^ e = 2 ^ 53 - 1 := Nat.mul_div_cancel _ (Nat.two_pow_pos e)
  rw [spacing_lastBefore, steps] at apart
  rw [Nat.pow_add]
  exact apart

theorem nearestQuanta_lt_iff (num : Nat) (positive : 0 < den) (e : Nat) :
    nearestQuanta num den < 2 ^ (53 + e) ↔ (2 * (num / den) : ℚ) < (2 ^ 54 - 1) * 2 ^ e := by
  have grid := aligned_nearestQuanta num positive
  have gap := grid.le_lastBefore_or_le e
  have beside_last := nearestQuanta_closest num positive (aligned_lastBefore e)
  have beside_next := nearestQuanta_closest num positive (aligned_two_pow (53 + e))
  have even := evenlyAligned_of_tie num positive (aligned_two_pow (53 + e))
  have odd := not_evenlyAligned_lastBefore e
  have unit : (0 : ℚ) < 2 ^ e := by positivity
  have last_is : (lastBefore e : ℚ) = (2 ^ 53 - 1) * 2 ^ e := by
    rw [lastBefore, Nat.cast_mul, Nat.cast_pow]
    norm_num
  have next_is : ((2 ^ (53 + e) : ℕ) : ℚ) = 2 ^ 53 * 2 ^ e := by
    rw [Nat.cast_pow, Nat.cast_two, pow_add]
  generalize nearestQuanta num den = q at *
  generalize (num / den : ℚ) = v at *
  generalize lastBefore e = last at *
  generalize 2 ^ (53 + e) = next at *
  constructor
  · intro small
    have below : (q : ℚ) ≤ last := Nat.cast_le.2 (gap.resolve_right (Nat.not_le_of_lt small))
    by_contra! large
    have from_q : |(q : ℚ) - v| = v - q := by
      rw [abs_sub_comm, abs_of_nonneg (by linarith)]
    have from_next : |(next : ℚ) - v| ≤ v - last := by
      rw [abs_le]
      constructor <;> linarith
    have is_last : q = last := Nat.cast_inj.1 (below.antisymm (by linarith))
    rw [is_last] at even from_q beside_next
    have other : next ≠ last := by
      rintro rfl
      linarith
    exact odd (even other (by linarith))
  · intro small
    by_contra! large
    have above : (next : ℚ) ≤ q := Nat.cast_le.2 large
    have from_last : |(last : ℚ) - v| < next - v := by
      rw [abs_lt]
      constructor <;> linarith
    have from_q : (next : ℚ) - v ≤ |(q : ℚ) - v| := le_abs.2 (.inl (by linarith))
    linarith

end Grid

/-! ## Signs -/

namespace Finite

def withSign (negative : Bool) (a : ℚ) : ℚ := if negative then -a else a

theorem withSign_zero (negative : Bool) : withSign negative 0 = 0 := by
  cases negative
  · rfl
  · exact neg_zero

theorem withSign_div (negative : Bool) (a b : ℚ) :
    withSign negative a / b = withSign negative (a / b) := by
  cases negative
  · rfl
  · exact neg_div b a

theorem withSign_natAbs (n : Int) : withSign (decide (n < 0)) n.natAbs = n := by
  rw [Nat.cast_natAbs]
  by_cases negative : n < 0
  · simp [withSign, negative, abs_of_neg]
  · simp [withSign, negative, abs_of_nonneg (Int.not_lt.1 negative)]

theorem toRat_eq (x : Finite) : x.toRat = withSign x.negative x.quanta / quantaPerUnit := by
  rw [toRat, signed, withSign]
  split <;> push_cast <;> rfl

theorem abs_withSign_sub (negative : Bool) (a b : ℚ) :
    |withSign negative b - withSign negative a| = |b - a| := by
  cases negative
  · rfl
  · change |-b - -a| = |b - a|
    rw [neg_sub_neg, abs_sub_comm]

theorem abs_withSign (negative : Bool) {a : ℚ} (nonneg : 0 ≤ a) : |withSign negative a| = a := by
  cases negative
  · exact abs_of_nonneg nonneg
  · exact (abs_neg a).trans (abs_of_nonneg nonneg)

theorem abs_sub_le_withSign {a b : ℚ} (a_nonneg : 0 ≤ a) (b_nonneg : 0 ≤ b) (left right : Bool) :
    |b - a| ≤ |withSign left b - withSign right a| := by
  have apart := abs_abs_sub_abs_le (withSign left b) (withSign right a)
  rwa [abs_withSign left b_nonneg, abs_withSign right a_nonneg] at apart

theorem abs_sub_withSign_of_ne {a b : ℚ} (a_nonneg : 0 ≤ a) (b_nonneg : 0 ≤ b) {left right : Bool}
    (other : left ≠ right) : |withSign left b - withSign right a| = b + a := by
  have sum (negative : Bool) :
      withSign negative b - withSign (!negative) a = withSign negative (b + a) := by
    cases negative
    · exact sub_neg_eq_add b a
    · exact (neg_add' b a).symm
  rw [Bool.eq_not_of_ne other.symm, sum, abs_withSign left (add_nonneg b_nonneg a_nonneg)]

theorem abs_toRat_sub (x : Finite) (v : ℚ) :
    |x.toRat - v / quantaPerUnit| = |withSign x.negative x.quanta - v| / quantaPerUnit := by
  rw [toRat_eq, ← sub_div, abs_div, Nat.abs_cast]

end Finite

namespace Binary64

variable {negative : Bool} {num den : Nat} {x : Finite}

/-- Rounding gives the nearest double. -/
theorem isNearest_ofQuanta (positive : 0 < den) (finite : ofQuanta negative num den = .finite x) :
    x.IsNearest (Finite.withSign negative (num / den) / quantaPerUnit) := by
  have size : (0 : ℚ) ≤ num / den := by positivity
  have unit : (0 : ℚ) < quantaPerUnit := Nat.cast_pos.2 quantaPerUnit_pos
  obtain ⟨rep, rfl⟩ : ∃ rep, x = ⟨negative, nearestQuanta num den, rep⟩ := by
    simp only [ofQuanta] at finite
    split at finite
    · next rep => exact ⟨rep, (Binary64.finite.inj finite).symm⟩
    · cases finite
  constructor
  · intro y
    rw [Finite.abs_toRat_sub, Finite.abs_toRat_sub, div_le_div_iff_of_pos_right unit,
      Finite.abs_withSign_sub]
    exact (nearestQuanta_closest num positive y.representable.2).trans
      (Finite.abs_sub_le_withSign size (Nat.cast_nonneg _) _ _)
  · intro y other tie
    rw [Finite.abs_toRat_sub, Finite.abs_toRat_sub, div_left_inj' unit.ne',
      Finite.abs_withSign_sub] at tie
    have as_near := Finite.abs_sub_le_withSign size (Nat.cast_nonneg y.quanta) y.negative negative
    refine evenlyAligned_of_tie num positive y.representable.2 (fun same => other ?_)
      ((tie ▸ as_near).antisymm (nearestQuanta_closest num positive y.representable.2))
    rw [Finite.toRat_eq, Finite.toRat_eq, same]
    by_cases sign : y.negative = negative
    · rw [sign]
    · have beside_zero := nearestQuanta_closest num positive representable_zero.2
      rw [Nat.cast_zero, zero_sub, abs_neg, abs_of_nonneg size] at beside_zero
      rw [Finite.abs_sub_withSign_of_ne size (Nat.cast_nonneg _) sign, same] at tie
      have zero : (nearestQuanta num den : ℚ) = 0 :=
        le_antisymm (by linarith) (Nat.cast_nonneg _)
      rw [zero, Finite.withSign_zero, Finite.withSign_zero]

end Binary64

/-! ## Whole numbers -/

/-- The least whole number that rounds to infinity: half a spacing above the largest double. -/
def overflow : Nat := 2 ^ 1024 - 2 ^ 970

theorem overflow_eq : overflow = 2 ^ (54 + 970) - 2 ^ 970 := by
  have exponent : 54 + 970 = 1024 := rfl
  rw [overflow, exponent]

theorem lt_overflow {n : Nat} (small : n < 2 ^ 64) : n < overflow := by
  have room {gap : Nat} (wide : 64 ≤ gap) : 2 ^ 64 ≤ 2 ^ (54 + gap) - 2 ^ gap := by
    have less : 2 ^ 64 ≤ 2 ^ gap := Nat.pow_le_pow_right (by decide) wide
    rw [Nat.pow_add]
    omega
  rw [overflow_eq]
  exact small.trans_le (room (by decide))

theorem representable_iff {q top : Nat} (is_top : top = 2098) :
    Representable q ↔ Aligned q ∧ q < 2 ^ top := by
  by_cases zero : q = 0
  · subst zero
    exact iff_of_true representable_zero ⟨representable_zero.2, Nat.two_pow_pos _⟩
  · rw [Representable, ← Nat.log2_lt zero, is_top]
    exact and_comm

theorem nearestQuanta_whole_lt_iff (n unit gap : Nat) :
    nearestQuanta (n * 2 ^ unit) 1 < 2 ^ (53 + (gap + 1 + unit)) ↔
      n < 2 ^ (54 + gap) - 2 ^ gap := by
  have middle : 2 ^ (54 + gap) - 2 ^ gap = (2 ^ 54 - 1) * 2 ^ gap := by
    rw [Nat.sub_mul, Nat.pow_add, Nat.one_mul]
  have scaled : 2 * (n * 2 ^ unit) < (2 ^ 54 - 1) * 2 ^ (gap + 1 + unit) ↔
      n < (2 ^ 54 - 1) * 2 ^ gap := by
    have positive : 0 < 2 * 2 ^ unit := Nat.mul_pos (by decide) (Nat.two_pow_pos unit)
    have left : 2 * (n * 2 ^ unit) = n * (2 * 2 ^ unit) := by ring
    have right : (2 ^ 54 - 1) * 2 ^ (gap + 1 + unit) = (2 ^ 54 - 1) * 2 ^ gap * (2 * 2 ^ unit) := by
      ring
    rw [left, right, Nat.mul_lt_mul_right positive]
  have cast : ((2 ^ 54 - 1 : ℕ) : ℚ) = 2 ^ 54 - 1 := by norm_num
  rw [nearestQuanta_lt_iff _ Nat.one_pos, middle, ← scaled, Nat.cast_one, div_one, ← cast]
  norm_cast

theorem representable_whole_iff (n : Nat) :
    Representable (nearestQuanta (n * quantaPerUnit) 1) ↔ n < overflow := by
  have aligned := aligned_nearestQuanta (n * quantaPerUnit) Nat.one_pos
  have below := nearestQuanta_whole_lt_iff n quantumExponent 970
  have top : 53 + (970 + 1 + quantumExponent) = 2098 := rfl
  rw [← quantaPerUnit_eq] at below
  rw [representable_iff top, overflow_eq, below]
  exact and_iff_right aligned

namespace Decimal

variable {n : Nat}

/-- Whole numbers below the overflow bound are read as the nearest double. -/
theorem exists_nearest (negative : Bool) (small : n < overflow) :
    ∃ x, toBinary64 negative ⟨n, 0⟩ = .finite x ∧ x.negative = negative ∧
      x.IsNearest (Finite.withSign negative n) := by
  have rep := (representable_whole_iff n).2 small
  have unit : (quantaPerUnit : ℚ) ≠ 0 := Nat.cast_ne_zero.2 quantaPerUnit_pos.ne'
  have units : Finite.withSign negative (n * quantaPerUnit : ℕ) / quantaPerUnit =
      Finite.withSign negative n := by
    rw [Nat.cast_mul, Finite.withSign_div, mul_div_cancel_right₀ _ unit]
  have finite : Binary64.ofQuanta negative (n * quantaPerUnit) 1 = .finite ⟨negative, _, rep⟩ :=
    dif_pos rep
  have nearest := Binary64.isNearest_ofQuanta Nat.one_pos finite
  rw [Nat.cast_one, div_one, units] at nearest
  exact ⟨_, (toBinary64_whole negative n).trans finite, rfl, nearest⟩

theorem toBinary64_of_overflow (negative : Bool) (large : overflow ≤ n) :
    toBinary64 negative ⟨n, 0⟩ = .infinite negative := by
  rw [toBinary64_whole]
  exact dif_neg (mt (representable_whole_iff n).1 (Nat.not_lt.2 large))

end Decimal

end Formwork
