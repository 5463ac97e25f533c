import Formwork.Number.Notation
import Formwork.Record

/-!
# Values

JSON values. A number is a signed or unsigned integer of 64 bits or a finite double; the kind is
part of the value. Objects keep the order of their members.
-/

namespace Formwork

inductive Number where
  | integer (n : Int) (inRange : -9223372036854775808 ≤ n ∧ n < 18446744073709551616)
  | float (x : Finite)
deriving DecidableEq

inductive Value where
  | null
  | bool (b : Bool)
  | number (n : Number)
  | string (s : String)
  | array (items : List Value)
  | object (members : List (String × Value))
deriving Inhabited

abbrev Props := Record Value

namespace Number

def toFinite : Number → Finite
  | .integer n _ => match Binary64.ofInt n with
    | .finite x => x
    | _ => .zero
  | .float x => x

def text : Number → String
  | .integer n _ => toString n
  | .float x => x.text .document

end Number

namespace Value

def ofProps (props : Props) : Value := .object props.entries

/-- A double as a number: an integer when it is whole and smaller than 2^63 in magnitude. What is
not finite has no number and becomes null. -/
def ofBinary64 : Binary64 → Value
  | .finite x =>
    if h : x.isIntegral = true ∧ -9223372036854775808 < x.truncate
        ∧ x.truncate < 9223372036854775808 then
      .number (.integer x.truncate ⟨by omega, by omega⟩)
    else .number (.float x)
  | _ => .null

/-- An integer of 64 bits as such, any other as its nearest double. -/
def ofInt (n : Int) : Value :=
  if h : -9223372036854775808 ≤ n ∧ n < 18446744073709551616 then .number (.integer n h)
  else ofBinary64 (.ofInt n)

def typeName : Value → String
  | .null => "null"
  | .bool _ => "boolean"
  | .number _ => "number"
  | .string _ => "string"
  | .array _ => "array"
  | .object _ => "object"

/-- Null, false, zero and the empty text are falsy, everything else is truthy. -/
def isTruthy : Value → Bool
  | .null => false
  | .bool b => b
  | .number n => n.toFinite.quanta != 0
  | .string s => !s.isEmpty
  | .array _ => true
  | .object _ => true

def number? : Value → Option Finite
  | .number n => some n.toFinite
  | _ => none

def member? (key : String) : Value → Option Value
  | .object members => Entries.get? key members
  | _ => none

end Value

end Formwork
