import Formwork.Number.Decimal

/-!
# Shortest digits

The decimal with the fewest digits that reads back as a given double, and of several such the one
nearest to it. Everything is compared in quarters of a quantum, in which the double, the midpoints
to its neighbours and the points of a decimal grid are fractions of whole numbers.
-/

namespace Formwork.Finite

/-- The interval of numbers that round to a magnitude, in quarters of a quantum. -/
structure Interval where
  low : Nat
  value : Nat
  high : Nat
  /-- Whether the ends themselves round to the magnitude. -/
  closed : Bool

/-- Below a power of two the neighbours are closer, unless the spacing is already one quantum. -/
def interval (q : Nat) : Interval :=
  let s := spacing q
  let below := if q == Nat.pow 2 q.log2 && s != 1 then s / 2 else s
  { low := 4 * q - 2 * below, value := 4 * q, high := 4 * q + 2 * s, closed := q / s % 2 == 0 }

/-- The first `k` from `start` on with `1 ≤ q * 10^k / 2^1074`, among the next `fuel`. -/
def firstDecade (q : Nat) : (fuel start : Nat) → Nat
  | 0, start => start
  | fuel + 1, start =>
    if quantaPerUnit ≤ q * Nat.pow 10 start then start else firstDecade q fuel (start + 1)

/-- The decimal exponent of a magnitude: `10^e ≤ q * 2^-1074 < 10^(e+1)`. -/
def decade (q : Nat) : Int :=
  if quantaPerUnit ≤ q then (Nat.toDigits 10 (q / quantaPerUnit)).length - 1
  else -(firstDecade q 324 1 : Int)

/-- A point of the grid of multiples of `10^p` that rounds to the magnitude: the nearer of the two
around it, and of two equally near ones the upper or the even one. -/
def onGrid (halfUp : Bool) (i : Interval) (p : Int) : Option Nat :=
  let unit := 4 * quantaPerUnit * Nat.pow 10 p.toNat
  let scale := Nat.pow 10 (-p).toNat
  let inside (k : Nat) : Bool :=
    if i.closed then i.low * scale ≤ k * unit && k * unit ≤ i.high * scale
    else i.low * scale < k * unit && k * unit < i.high * scale
  let k := i.value * scale / unit
  match inside k, inside (k + 1) with
  | true, false => some k
  | false, true => some (k + 1)
  | false, false => none
  | true, true =>
    let twice := 2 * (i.value * scale)
    let middle := (2 * k + 1) * unit
    if twice < middle then some k
    else if middle < twice then some (k + 1)
    else if halfUp || k % 2 == 1 then some (k + 1) else some k

/-- Seventeen digits always suffice; the exact expansion stands for the rest. -/
def shortest (halfUp : Bool) (q : Nat) : Decimal :=
  let e := decade q
  let found := (List.range 17).findSome? fun (n : Nat) =>
    (onGrid halfUp (interval q) (e - n)).map fun k => (⟨k, e - n⟩ : Decimal)
  found.getD ⟨q * Nat.pow 5 quantumExponent, -quantumExponent⟩

theorem shortest_cases (halfUp : Bool) (q : Nat) :
    (∃ p k, onGrid halfUp (interval q) p = some k ∧ shortest halfUp q = ⟨k, p⟩) ∨
      shortest halfUp q = ⟨q * Nat.pow 5 quantumExponent, -quantumExponent⟩ := by
  simp only [shortest]
  cases found : (List.range 17).findSome? _ with
  | some d =>
      obtain ⟨n, -, on_grid⟩ := List.exists_of_findSome?_eq_some found
      obtain ⟨k, hit, rfl⟩ := Option.map_eq_some_iff.1 on_grid
      exact .inl ⟨_, k, hit, rfl⟩
  | none => exact .inr rfl

end Formwork.Finite
