import Mathlib.Algebra.Order.Ring.Nat
import Mathlib.Data.Nat.Log
import Mathlib.Tactic.Ring
import Mathlib.Tactic.Linarith
import Formwork.Number.Shortest

/-!
# Rounding intervals

The interval of a magnitude is bounded by the midpoints to its neighbours; every number in it rounds
to the magnitude, also below a power of two, where the spacing is half.
-/

namespace Formwork

/-- `num / den` quanta are in the interval. -/
def Finite.Interval.Has (i : Finite.Interval) (num den : Nat) : Prop :=
  if i.closed then i.low * den ≤ 4 * num ∧ 4 * num ≤ i.high * den
  else i.low * den < 4 * num ∧ 4 * num < i.high * den

theorem div_mod_of_lt {r b : Nat} (small : r < b) (m : Nat) :
    (r + m * b) / b = m ∧ (r + m * b) % b = r := by
  rw [Nat.add_mul_div_right _ _ (by omega), Nat.div_eq_of_lt small, Nat.zero_add,
    Nat.add_mul_mod_self_right, Nat.mod_eq_of_lt small]
  exact ⟨rfl, rfl⟩

section Nearest

variable {num den s m : Nat}

/-- Rounding down to a multiple of the spacing. -/
theorem nearestQuanta_of_above (spaced : spacing (num / den) = s) (above : m * (den * s) ≤ num)
    (near : 2 * num ≤ (2 * m + 1) * (den * s)) (positive : 0 < den * s)
    (tie : 2 * num = (2 * m + 1) * (den * s) → m % 2 = 0) : nearestQuanta num den = m * s := by
  obtain ⟨r, rfl⟩ := Nat.exists_eq_add_of_le' above
  have twice : (2 * m + 1) * (den * s) = 2 * (m * (den * s)) + den * s := by ring
  obtain ⟨quotient, remainder⟩ := div_mod_of_lt (by omega : r < den * s) m
  simp only [nearestQuanta, spaced, quotient, remainder]
  rw [if_pos]
  simp only [Bool.or_eq_true, Bool.and_eq_true, decide_eq_true_eq, beq_iff_eq]
  omega

theorem nearestQuanta_of_below (spaced : spacing (num / den) = s)
    (below : num < (m + 1) * (den * s)) (near : (2 * m + 1) * (den * s) ≤ 2 * num)
    (tie : 2 * num = (2 * m + 1) * (den * s) → m % 2 = 1) :
    nearestQuanta num den = (m + 1) * s := by
  have twice : (2 * m + 1) * (den * s) = 2 * (m * (den * s)) + den * s := by ring
  have once : (m + 1) * (den * s) = m * (den * s) + den * s := by ring
  have above : m * (den * s) ≤ num := by omega
  obtain ⟨r, rfl⟩ := Nat.exists_eq_add_of_le' above
  obtain ⟨quotient, remainder⟩ := div_mod_of_lt (by omega : r < den * s) m
  simp only [nearestQuanta, spaced, quotient, remainder]
  rw [if_neg]
  simp only [Bool.or_eq_true, Bool.and_eq_true, decide_eq_true_eq, beq_iff_eq]
  omega

end Nearest

section Spacing

variable {q t : Nat}

theorem spacing_eq (q : Nat) : spacing q = 2 ^ (q.log2 - 52) := rfl

theorem spacing_pos (q : Nat) : 0 < spacing q := Nat.two_pow_pos _

theorem quantaPerUnit_eq : quantaPerUnit = 2 ^ quantumExponent := by
  unfold quantaPerUnit
  rw [Nat.pow_eq]

theorem quantaPerUnit_pos : 0 < quantaPerUnit := by
  rw [quantaPerUnit_eq]
  exact Nat.two_pow_pos _

theorem spacing_eq_of_log2 (same : t.log2 = q.log2) : spacing t = spacing q := by
  rw [spacing, spacing, same]

theorem spacing_dvd_binade (q : Nat) : spacing q ∣ 2 ^ q.log2 :=
  Nat.pow_dvd_pow 2 (Nat.sub_le _ _)

theorem log2_eq_of_between {l : Nat} (low : 2 ^ l ≤ t) (high : t < 2 ^ (l + 1)) : t.log2 = l := by
  have nonzero : t ≠ 0 := by
    have := Nat.two_pow_pos l
    omega
  exact (Nat.log2_eq_iff nonzero).2 ⟨low, high⟩

/-- The next grid point is in the same binade or starts the next one. -/
theorem add_spacing_le_binade (rep : Representable q) : q + spacing q ≤ 2 ^ (q.log2 + 1) := by
  obtain ⟨m, on_grid⟩ := Nat.dvd_of_mod_eq_zero rep.2
  obtain ⟨a, start⟩ := spacing_dvd_binade q
  have upper : q < 2 ^ (q.log2 + 1) := Nat.lt_log2_self
  rw [Nat.pow_succ, start] at upper ⊢
  generalize spacing q = s at *
  subst on_grid
  have steps : m < a * 2 := by
    apply Nat.lt_of_mul_lt_mul_left (a := s)
    rw [← Nat.mul_assoc]
    exact upper
  have next : s * (m + 1) ≤ s * (a * 2) := Nat.mul_le_mul_left s steps
  rw [Nat.mul_succ, ← Nat.mul_assoc] at next
  exact next

theorem binade_add_spacing_le (rep : Representable q) (nonzero : q ≠ 0) (inner : q ≠ 2 ^ q.log2) :
    2 ^ q.log2 + spacing q ≤ q := by
  obtain ⟨m, on_grid⟩ := Nat.dvd_of_mod_eq_zero rep.2
  obtain ⟨a, start⟩ := spacing_dvd_binade q
  have lower : 2 ^ q.log2 ≤ q := Nat.log2_self_le nonzero
  have strict : 2 ^ q.log2 < q := by omega
  rw [start] at strict ⊢
  generalize spacing q = s at *
  subst on_grid
  have steps : a < m := Nat.lt_of_mul_lt_mul_left strict
  have next : s * (a + 1) ≤ s * m := Nat.mul_le_mul_left s steps
  rw [Nat.mul_succ] at next
  exact next

theorem spacing_of_above (rep : Representable q) (nonzero : q ≠ 0) (above : q ≤ t)
    (near : t < q + spacing q) : spacing t = spacing q :=
  spacing_eq_of_log2 (log2_eq_of_between ((Nat.log2_self_le nonzero).trans above)
    (near.trans_le (add_spacing_le_binade rep)))

theorem spacing_of_below (rep : Representable q) (nonzero : q ≠ 0) (inner : q ≠ 2 ^ q.log2)
    (below : t < q) (near : q ≤ t + spacing q) : spacing t = spacing q := by
  have lower := binade_add_spacing_le rep nonzero inner
  have upper : q < 2 ^ (q.log2 + 1) := Nat.lt_log2_self
  exact spacing_eq_of_log2 (log2_eq_of_between (by omega) (by omega))

theorem spacing_of_fine (fine : spacing q = 1) (below : t ≤ q) : spacing t = 1 := by
  have shallow : q.log2 - 52 = 0 := (Nat.pow_eq_one.1 fine).resolve_left (by decide)
  have lower : t.log2 ≤ q.log2 := by
    rw [Nat.log2_eq_log_two, Nat.log2_eq_log_two]
    exact Nat.log_mono_right below
  rw [spacing_eq, Nat.sub_eq_zero_of_le (by omega), Nat.pow_zero]

/-- Below the start of a binade the spacing is half, unless it is one quantum. -/
theorem spacing_of_below_binade (start : q = 2 ^ q.log2) (coarse : spacing q ≠ 1) (below : t < q)
    (near : q ≤ t + spacing q) : 2 * spacing t = spacing q := by
  have deep : 52 < q.log2 := by
    by_contra shallow
    exact coarse (by rw [spacing_eq, Nat.sub_eq_zero_of_le (by omega), Nat.pow_zero])
  obtain ⟨l, level⟩ : ∃ l, q.log2 = l + 53 := ⟨q.log2 - 53, by omega⟩
  have spaced : spacing q = 2 * 2 ^ l := by
    rw [spacing_eq, level, Nat.add_sub_assoc (by omega), Nat.pow_succ, Nat.mul_comm]
  have whole : q = 2 ^ 53 * 2 ^ l := by
    rw [start, level, Nat.pow_add, Nat.mul_comm]
  have finer : t.log2 = l + 52 := by
    apply log2_eq_of_between
    · rw [Nat.pow_add]
      omega
    · rw [Nat.add_assoc, Nat.pow_add]
      omega
  rw [spaced, spacing_eq, finer, Nat.add_sub_cancel]

theorem two_mul_half_spacing (coarse : spacing q ≠ 1) : 2 * (spacing q / 2) = spacing q := by
  obtain ⟨l, level⟩ : ∃ l, spacing q = 2 ^ l := ⟨_, rfl⟩
  rw [level] at coarse ⊢
  cases l with
  | zero => exact (coarse rfl).elim
  | succ l => rw [Nat.pow_succ, Nat.mul_div_cancel _ (by decide), Nat.mul_comm]

theorem spacing_le (nonzero : q ≠ 0) : spacing q ≤ q :=
  (Nat.le_of_dvd (Nat.two_pow_pos _) (spacing_dvd_binade q)).trans (Nat.log2_self_le nonzero)

end Spacing

namespace Finite

namespace Interval.Has

variable {i : Interval} {num den : Nat}

theorem bounds (h : i.Has num den) : i.low * den ≤ 4 * num ∧ 4 * num ≤ i.high * den := by
  unfold Has at h
  split at h
  · exact h
  · exact ⟨h.1.le, h.2.le⟩

theorem closed_of_end (h : i.Has num den)
    (is_end : 4 * num = i.low * den ∨ 4 * num = i.high * den) : i.closed = true := by
  unfold Has at h
  split at h
  · assumption
  · omega

end Interval.Has

section Interval

variable {q num den : Nat}

theorem interval_high (q : Nat) : (interval q).high = 4 * q + 2 * spacing q := rfl

theorem interval_low (inner : q ≠ 2 ^ q.log2 ∨ spacing q = 1) :
    (interval q).low = 4 * q - 2 * spacing q := by
  simp only [interval]
  rw [if_neg]
  simp only [Bool.and_eq_true, beq_iff_eq, bne_iff_ne]
  tauto

theorem interval_low_of_binade (start : q = 2 ^ q.log2) (coarse : spacing q ≠ 1) :
    (interval q).low = 4 * q - 2 * (spacing q / 2) := by
  simp only [interval]
  rw [if_pos]
  simp only [Bool.and_eq_true, beq_iff_eq, bne_iff_ne]
  exact ⟨start, coarse⟩

theorem interval_closed {m : Nat} (on_grid : q = m * spacing q) :
    (interval q).closed = true ↔ m % 2 = 0 := by
  have quotient : q / spacing q = m := Nat.div_eq_of_eq_mul_left (spacing_pos q) on_grid
  simp only [interval, quotient, beq_iff_eq]

theorem interval_low_lt (nonzero : q ≠ 0) : (interval q).low < 4 * q := by
  have positive := spacing_pos q
  have fits := spacing_le nonzero
  by_cases inner : q ≠ 2 ^ q.log2 ∨ spacing q = 1
  · rw [interval_low inner]
    omega
  · rw [not_or, not_not] at inner
    have := two_mul_half_spacing inner.2
    rw [interval_low_of_binade inner.1 inner.2]
    omega

theorem two_mul_le_interval_low (nonzero : q ≠ 0) : 2 * q ≤ (interval q).low := by
  have fits := spacing_le nonzero
  by_cases inner : q ≠ 2 ^ q.log2 ∨ spacing q = 1
  · rw [interval_low inner]
    omega
  · rw [not_or, not_not] at inner
    rw [interval_low_of_binade inner.1 inner.2]
    omega

theorem nearestQuanta_of_has_above (rep : Representable q) (nonzero : q ≠ 0) (positive : 0 < den)
    (has : (interval q).Has num den) (above : q * den ≤ num) : nearestQuanta num den = q := by
  obtain ⟨m, on_grid⟩ := exists_eq_mul_left_of_dvd (Nat.dvd_of_mod_eq_zero rep.2)
  have upper := has.bounds.2
  have is_end := has.closed_of_end
  rw [interval_closed on_grid] at is_end
  rw [interval_high] at upper is_end
  have spaced : num / den < q + spacing q → spacing (num / den) = spacing q :=
    spacing_of_above rep nonzero ((Nat.le_div_iff_mul_le positive).2 above)
  have spacing_positive := spacing_pos q
  generalize spacing q = s at *
  have quanta : m * (den * s) = q * den := by
    rw [on_grid]
    ring
  have expanded : (4 * q + 2 * s) * den = 4 * (q * den) + 2 * (den * s) := by ring
  have odd : (2 * m + 1) * (den * s) = 2 * (m * (den * s)) + den * s := by ring
  have step_positive : 0 < den * s := Nat.mul_pos positive spacing_positive
  have near : num < (q + s) * den := by
    have : (q + s) * den = q * den + den * s := by ring
    omega
  rw [on_grid]
  exact nearestQuanta_of_above (spaced ((Nat.div_lt_iff_lt_mul positive).2 near)) (by omega)
    (by omega) step_positive fun tie => is_end (.inr (by omega))

theorem nearestQuanta_of_half_step {m s : Nat} (on_grid : q = (m + 1) * s)
    (spaced : q ≤ num / den + s → spacing (num / den) = s) (positive : 0 < den)
    (below : num < q * den) (lower : (4 * q - 2 * s) * den ≤ 4 * num)
    (tie : 4 * num = (4 * q - 2 * s) * den → m % 2 = 1) : nearestQuanta num den = q := by
  have fits : s ≤ q := on_grid ▸ Nat.le_mul_of_pos_left s m.succ_pos
  have quanta : q * den = m * s * den + s * den := by
    rw [on_grid]
    ring
  have expanded : (4 * q - 2 * s) * den + 2 * (s * den) = 4 * (q * den) := by
    rw [← Nat.mul_assoc, ← Nat.add_mul, Nat.sub_add_cancel (by omega), Nat.mul_assoc]
  have odd : (2 * m + 1) * (den * s) = 2 * (m * s * den) + s * den := by ring
  have next : (m + 1) * (den * s) = m * s * den + s * den := by ring
  have near : q ≤ num / den + s := by
    have before : m * s ≤ num / den := (Nat.le_div_iff_mul_le positive).2 (by omega)
    rw [on_grid, Nat.succ_mul]
    omega
  rw [on_grid]
  exact nearestQuanta_of_below (spaced near) (by omega) (by omega) fun half => tie (by omega)

theorem nearestQuanta_of_has_below (rep : Representable q) (nonzero : q ≠ 0) (positive : 0 < den)
    (has : (interval q).Has num den) (below : num < q * den)
    (inner : q ≠ 2 ^ q.log2 ∨ spacing q = 1) : nearestQuanta num den = q := by
  obtain ⟨a, on_grid⟩ := exists_eq_mul_left_of_dvd (Nat.dvd_of_mod_eq_zero rep.2)
  obtain ⟨m, rfl⟩ : ∃ m, a = m + 1 := by
    refine Nat.exists_eq_succ_of_ne_zero ?_
    rintro rfl
    rw [Nat.zero_mul] at on_grid
    exact nonzero on_grid
  have lower := has.bounds.1
  have is_end := has.closed_of_end
  rw [interval_closed on_grid] at is_end
  rw [interval_low inner] at lower is_end
  have smaller : num / den < q := (Nat.div_lt_iff_lt_mul positive).2 below
  refine nearestQuanta_of_half_step on_grid (fun near => ?_) positive below lower fun tie => ?_
  · rcases inner with inner | fine
    · exact spacing_of_below rep nonzero inner smaller near
    · rw [fine, spacing_of_fine fine smaller.le]
  · have even := is_end (.inl tie)
    omega

theorem nearestQuanta_of_has_below_binade (nonzero : q ≠ 0) (positive : 0 < den)
    (has : (interval q).Has num den) (below : num < q * den) (start : q = 2 ^ q.log2)
    (coarse : spacing q ≠ 1) : nearestQuanta num den = q := by
  obtain ⟨half, doubled⟩ : ∃ half, spacing q = 2 * half :=
    ⟨_, (two_mul_half_spacing coarse).symm⟩
  obtain ⟨a, on_grid⟩ := spacing_dvd_binade q
  rw [← start, doubled] at on_grid
  obtain ⟨m, rfl⟩ : ∃ m, a = m + 1 := by
    refine Nat.exists_eq_succ_of_ne_zero ?_
    rintro rfl
    exact nonzero on_grid
  have lower := has.bounds.1
  rw [interval_low_of_binade start coarse, doubled, Nat.mul_div_cancel_left _ (by decide)] at lower
  have smaller : num / den < q := (Nat.div_lt_iff_lt_mul positive).2 below
  have on_half : q = (2 * m + 1 + 1) * half := by
    rw [on_grid]
    ring
  refine nearestQuanta_of_half_step on_half (fun near => ?_) positive below lower fun _ => by omega
  have finer := spacing_of_below_binade start coarse smaller (by omega)
  omega

/-- Every number in the interval of a magnitude rounds to it. -/
theorem nearestQuanta_of_has (rep : Representable q) (nonzero : q ≠ 0) (positive : 0 < den)
    (has : (interval q).Has num den) : nearestQuanta num den = q := by
  by_cases above : q * den ≤ num
  · exact nearestQuanta_of_has_above rep nonzero positive has above
  · by_cases inner : q ≠ 2 ^ q.log2 ∨ spacing q = 1
    · exact nearestQuanta_of_has_below rep nonzero positive has (by omega) inner
    · rw [not_or, not_not] at inner
      exact nearestQuanta_of_has_below_binade nonzero positive has (by omega) inner.1 inner.2

end Interval

end Finite

end Formwork
