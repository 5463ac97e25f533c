import Formwork.Number.Binary64

/-!
# Decimal numbers

Decimal texts, the number `digits * 10^exponent` that one stands for, and the double nearest to it.
-/

namespace Formwork

/-- The number `digits * 10^exponent`. -/
structure Decimal where
  digits : Nat
  exponent : Int
deriving DecidableEq

namespace Decimal

/-- Far outside the range of doubles nothing is computed: from 10^400 on a number is infinite,
and below 10^-400 it is zero. -/
def toBinary64 (negative : Bool) (d : Decimal) : Binary64 :=
  if d.digits = 0 then .ofQuanta negative 0 1
  else if 400 < d.exponent then .infinite negative
  else if d.exponent < -400 - (d.digits.log2 : Int) then .ofQuanta negative 0 1
  else if 0 ≤ d.exponent then
    .ofQuanta negative (d.digits * Nat.pow 10 d.exponent.toNat * quantaPerUnit) 1
  else .ofQuanta negative (d.digits * quantaPerUnit) (Nat.pow 10 (-d.exponent).toNat)

def digitValue (c : Char) : Nat := c.toNat - '0'.toNat

def digitsValue (acc : Nat) (cs : List Char) : Nat :=
  cs.foldl (fun n c => n * 10 + digitValue c) acc

/-- The exponent at the end of a number: an `e`, perhaps a sign, and at least one digit. -/
def readExponent (cs : List Char) : Option Int :=
  match cs with
  | [] => some 0
  | c :: rest =>
    if c == 'e' || c == 'E' then
      let (negative, ds) := match rest with
        | '-' :: ds => (true, ds)
        | '+' :: ds => (false, ds)
        | ds => (false, ds)
      if ds.isEmpty || !ds.all Char.isDigit then none
      else if negative then some (-(digitsValue 0 ds : Int)) else some (digitsValue 0 ds)
    else none

/-- Reads digits, perhaps a point among, before or after them, and perhaps an exponent. -/
def read? (cs : List Char) : Option Decimal :=
  let whole := cs.takeWhile Char.isDigit
  let rest := cs.dropWhile Char.isDigit
  let (fraction, rest) := match rest with
    | '.' :: more => (more.takeWhile Char.isDigit, more.dropWhile Char.isDigit)
    | rest => ([], rest)
  if whole.isEmpty && fraction.isEmpty then none
  else (readExponent rest).map fun e =>
    ⟨digitsValue (digitsValue 0 whole) fraction, e - fraction.length⟩

end Decimal

namespace Binary64

def ofDecimalText? (cs : List Char) : Option Binary64 :=
  (Decimal.read? cs).map (Decimal.toBinary64 false)

/-- Reads a number with an optional sign; besides decimals there are the names of the values that
no decimal reaches, in any case of their letters. -/
def ofText? (cs : List Char) : Option Binary64 :=
  let (negative, body) := match cs with
    | '-' :: rest => (true, rest)
    | '+' :: rest => (false, rest)
    | rest => (false, rest)
  let name := String.ofList (body.map Char.toLower)
  if name == "inf" || name == "infinity" then some (.infinite negative)
  else if name == "nan" then some .nan
  else (Decimal.read? body).map (Decimal.toBinary64 negative)

end Binary64

end Formwork
