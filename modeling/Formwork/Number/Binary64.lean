/-!
# Binary64 numbers

A finite double is a whole number of quanta of 2^-1074 with at most 53 significant bits, together
with a sign, which zero has too. Results are computed exactly and rounded once, to the nearest
representable number, a half to the one with the even significand.
-/

namespace Formwork

/-- A quantum is 2 to the minus this power. -/
def quantumExponent : Nat := 1074

def quantaPerUnit : Nat := Nat.pow 2 quantumExponent

/-- Distance in quanta between neighbouring doubles in the binade of `q`. -/
def spacing (q : Nat) : Nat := Nat.pow 2 (q.log2 - 52)

/-- Whether `q` quanta are the magnitude of a finite double: below 2^2098, and on the grid. -/
def Representable (q : Nat) : Prop := q.log2 < 2098 ∧ q % spacing q = 0

instance (q : Nat) : Decidable (Representable q) := inferInstanceAs (Decidable (_ ∧ _))

theorem representable_zero : Representable 0 := ⟨by decide, Nat.zero_mod _⟩

/-- The multiple of the spacing nearest to `num / den` quanta, a half to the even multiple. -/
def nearestQuanta (num den : Nat) : Nat :=
  let s := spacing (num / den)
  let k := num / (den * s)
  let r := num % (den * s)
  if 2 * r < den * s || (2 * r == den * s && k % 2 == 0) then k * s else (k + 1) * s

structure Finite where
  negative : Bool
  quanta : Nat
  representable : Representable quanta
deriving DecidableEq

inductive Binary64 where
  | nan
  | infinite (negative : Bool)
  | finite (x : Finite)
deriving DecidableEq

namespace Binary64

/-- The double nearest to `num / den` quanta; beyond the largest double it is infinite. -/
def ofQuanta (negative : Bool) (num den : Nat) : Binary64 :=
  let q := nearestQuanta num den
  if h : Representable q then .finite ⟨negative, q, h⟩ else .infinite negative

def ofSignedQuanta (n : Int) : Binary64 := ofQuanta (decide (n < 0)) n.natAbs 1

def ofInt (n : Int) : Binary64 := ofSignedQuanta (n * quantaPerUnit)

def neg : Binary64 → Binary64
  | .nan => .nan
  | .infinite s => .infinite !s
  | .finite x => .finite ⟨!x.negative, x.quanta, x.representable⟩

/-- The double with these 64 bits: a sign bit, eleven of exponent, 52 of fraction. -/
def ofBits (bits : Nat) : Binary64 :=
  let negative := bits / Nat.pow 2 63 % 2 == 1
  let exponent := bits / Nat.pow 2 52 % Nat.pow 2 11
  let fraction := bits % Nat.pow 2 52
  if exponent == 2047 then
    if fraction == 0 then .infinite negative else .nan
  else if exponent == 0 then ofQuanta negative fraction 1
  else ofQuanta negative ((Nat.pow 2 52 + fraction) * Nat.pow 2 (exponent - 1)) 1

end Binary64

namespace Finite

def signed (x : Finite) : Int := if x.negative then -(x.quanta : Int) else x.quanta

def zero : Finite := ⟨false, 0, representable_zero⟩

instance : Inhabited Finite := ⟨zero⟩

/-- The two zeros are equal. -/
def eq (x y : Finite) : Bool := x.signed == y.signed

def lt (x y : Finite) : Bool := x.signed < y.signed

def neg (x : Finite) : Finite := ⟨!x.negative, x.quanta, x.representable⟩

/-- A sum of zeros is negative only when both are. -/
def add (x y : Finite) : Binary64 :=
  if x.signed + y.signed = 0 then .finite ⟨x.negative && y.negative, 0, representable_zero⟩
  else .ofSignedQuanta (x.signed + y.signed)

def sub (x y : Finite) : Binary64 := x.add y.neg

def mul (x y : Finite) : Binary64 :=
  .ofQuanta (x.negative != y.negative) (x.quanta * y.quanta) quantaPerUnit

def div (x y : Finite) : Binary64 :=
  if y.quanta = 0 then
    if x.quanta = 0 then .nan else .infinite (x.negative != y.negative)
  else .ofQuanta (x.negative != y.negative) (x.quanta * quantaPerUnit) y.quanta

/-- The remainder of truncated division, with the sign of the dividend. -/
def rem (x y : Finite) : Binary64 :=
  if y.quanta = 0 then .nan else .ofQuanta x.negative (x.quanta % y.quanta) 1

def isIntegral (x : Finite) : Bool := x.quanta % quantaPerUnit == 0

def truncate (x : Finite) : Int := x.signed.tdiv quantaPerUnit

/-- The integer part as a double; zero keeps the sign. -/
def trunc (x : Finite) : Binary64 :=
  .ofQuanta x.negative (x.quanta / quantaPerUnit * quantaPerUnit) 1

end Finite

namespace Binary64

/-- NaN equals nothing, and the two zeros are equal. -/
def eq : Binary64 → Binary64 → Bool
  | .finite x, .finite y => x.eq y
  | .infinite s, .infinite t => s == t
  | _, _ => false

end Binary64

end Formwork
