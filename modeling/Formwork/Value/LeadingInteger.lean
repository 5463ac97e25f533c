import Formwork.Text.Blank
import Formwork.Value.Basic

/-!
# Leading integers

The integer reading of an emitted value: the integer part of a number, or the integer at the front
of a text. An event holds its value under `target`, `value`.
-/

namespace Formwork.Value

/-- The emitted value of an event, any other value itself. -/
def eventValue (v : Value) : Value :=
  ((v.member? "target").bind (member? "value")).getD v

def splitSign : List Char → Bool × List Char
  | '-' :: rest => (true, rest)
  | '+' :: rest => (false, rest)
  | cs => (false, cs)

/-- A magnitude below 2^63 is exact, a larger one is the nearest double. -/
def ofMagnitude (negative : Bool) (n : Nat) : Value :=
  if n < 9223372036854775808 then ofInt (if negative then -n else n)
  else ofBinary64 (Decimal.toBinary64 negative ⟨n, 0⟩)

def leadingIntegerOfText (s : String) : Value :=
  let (negative, rest) := splitSign (Text.trimStart s.toList)
  let digits := rest.takeWhile Char.isDigit
  if digits.isEmpty then .null else ofMagnitude negative (Decimal.digitsValue 0 digits)

def leadingIntegerOfNumber : Number → Value
  | .integer n h =>
    if n < 9223372036854775808 then .number (.integer n h)
    else ofBinary64 (Number.integer n h).toFinite.trunc
  | .float x => ofBinary64 x.trunc

def leadingInteger (v : Value) : Value :=
  match v.eventValue with
  | .number n => leadingIntegerOfNumber n
  | .string s => leadingIntegerOfText s
  | _ => .null

end Formwork.Value
