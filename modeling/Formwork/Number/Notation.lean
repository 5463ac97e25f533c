import Formwork.Number.Shortest

/-!
# Number formats

Two layouts of the shortest digits: that of JSON documents, with exponents for large and small
numbers and `.0` on whole ones, and plain positional notation.
-/

namespace Formwork

/-- The parameters of a number format. -/
structure NumberFormat where
  /-- Whether a number halfway between two shortest decimals goes to the upper one, not the even. -/
  halfUp : Bool
  /-- Whether a number `d.ddd * 10^e` is written without an exponent. -/
  positional : Int → Bool
  /-- What follows a whole number. -/
  wholeMark : String

namespace NumberFormat

/-- Positional from 10^-5 to below 10^16. -/
def document : NumberFormat := ⟨false, fun e => -5 ≤ e && e ≤ 15, ".0"⟩

def plain : NumberFormat := ⟨true, fun _ => true, ""⟩

end NumberFormat

namespace Finite

def zeros (n : Nat) : String := String.ofList (List.replicate n '0')

def layout (format : NumberFormat) (digits : List Char) (e : Int) : String :=
  let text := String.ofList
  if format.positional e then
    if e < 0 then "0." ++ zeros (-e - 1).toNat ++ text digits
    else
      let whole := e.toNat + 1
      if digits.length ≤ whole then text digits ++ zeros (whole - digits.length) ++ format.wholeMark
      else text (digits.take whole) ++ "." ++ text (digits.drop whole)
  else
    let mantissa := match digits with
      | [] => ""
      | [d] => text [d]
      | d :: rest => text [d] ++ "." ++ text rest
    mantissa ++ "e" ++ (if e < 0 then "-" else "+") ++ toString e.natAbs

def stripZeros (digits : List Char) : List Char :=
  (digits.reverse.dropWhile (· == '0')).reverse

def text (format : NumberFormat) (x : Finite) : String :=
  let sign := if x.negative then "-" else ""
  if x.quanta = 0 then sign ++ "0" ++ format.wholeMark
  else
    let d := shortest format.halfUp x.quanta
    let digits := Nat.toDigits 10 d.digits
    sign ++ layout format (stripZeros digits) (d.exponent + digits.length - 1)

end Finite

/-- In plain notation every double has a text. -/
def Binary64.plainText : Binary64 → String
  | .nan => "NaN"
  | .infinite negative => if negative then "-inf" else "inf"
  | .finite x => x.text .plain

end Formwork
