import Formwork.Number.Decimal
import Formwork.Value.Basic

/-!
# JSON numbers

An integer literal within 64 bits is an integer. Any other literal is a double, rounded once for the
leading digits that fit 64 bits and once for scaling by a power of ten.
-/

namespace Formwork

/-- A number as written: sign, digits before and after the point, exponent. -/
structure NumberLiteral where
  negative : Bool
  whole : List Char
  fraction : List Char
  exponent : Int
  isWhole : Bool

namespace NumberLiteral

/-- Takes digits into `n` while it stays below 2^64; counts the ones taken. -/
def takeDigits (n taken : Nat) : List Char → Nat × Nat
  | [] => (n, taken)
  | c :: rest =>
    let next := n * 10 + Decimal.digitValue c
    if next < 18446744073709551616 then takeDigits next (taken + 1) rest else (n, taken)

/-- The leading digits as a number, and the power of ten that completes them. -/
def scaled (l : NumberLiteral) : Nat × Int :=
  let (n, taken) := takeDigits 0 0 l.whole
  let (m, more) := takeDigits n 0 l.fraction
  (m, l.exponent + (l.whole.length - taken : Nat) - more)

def powerOfTen (n : Nat) : Finite :=
  match Binary64.ofInt (Nat.pow 10 n) with
  | .finite x => x
  | _ => .zero

def finite? : Binary64 → Option Finite
  | .finite x => some x
  | _ => none

/-- Multiplies by a power of ten; below 10^-308 in several divisions. None when it overflows. -/
def scale : (steps : Nat) → Finite → Int → Option Finite
  | steps, x, e =>
    if e.natAbs ≤ 308 then
      if 0 ≤ e then finite? (x.mul (powerOfTen e.toNat)) else finite? (x.div (powerOfTen e.natAbs))
    else if x.quanta = 0 then some x
    else if 0 ≤ e then none
    else
      match steps with
      | 0 => some .zero
      | steps + 1 => (finite? (x.div (powerOfTen 308))).bind fun y => scale steps y (e + 308)

def toFinite? (l : NumberLiteral) : Option Finite :=
  let (n, e) := l.scaled
  (finite? (.ofInt n)).bind fun x => (scale 3 x e).map fun y => if l.negative then y.neg else y

/-- None when the number is beyond the largest double. -/
def toValue? (l : NumberLiteral) : Option Value :=
  let n := Decimal.digitsValue 0 l.whole
  if l.isWhole && !l.negative && n < 18446744073709551616 then some (.ofInt n)
  else if l.isWhole && l.negative && 0 < n && n ≤ 9223372036854775808 then some (.ofInt (-n))
  else l.toFinite?.map fun x => .number (.float x)

end NumberLiteral

end Formwork
