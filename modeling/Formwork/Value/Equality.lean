import Formwork.Text.Blank
import Formwork.Value.Basic

/-!
# Equality of values

`same` is structural and distinguishes integers from doubles. `strictEqual` compares numbers by
magnitude at the top; `looseEqual` also converts between numbers, texts and truth values.
-/

namespace Formwork

/-- Equality of kind and size; the two zeros are equal. -/
def Number.same : Number → Number → Bool
  | .integer m _, .integer n _ => m == n
  | .float x, .float y => x.eq y
  | _, _ => false

namespace Value

mutual

def same : Value → Value → Bool
  | .null, .null => true
  | .bool a, .bool b => a == b
  | .number m, .number n => m.same n
  | .string s, .string t => s == t
  | .array xs, .array ys => sameItems xs ys
  | .object ms, .object ns => ms.length == ns.length && sameMembers ms ns
  | _, _ => false

def sameItems : List Value → List Value → Bool
  | [], [] => true
  | x :: xs, y :: ys => x.same y && sameItems xs ys
  | _, _ => false

/-- Every member has an equal member under the same key, in any position. -/
def sameMembers : List (String × Value) → List (String × Value) → Bool
  | [], _ => true
  | (k, v) :: rest, others =>
    (match Entries.get? k others with
      | some w => v.same w
      | none => false) && sameMembers rest others

end

def strictEqual (left right : Value) : Bool :=
  match left, right with
  | .number m, .number n => m.toFinite.eq n.toFinite
  | _, _ => left.same right

/-- The number that a text stands for; a blank text is zero. -/
def textNumber? (s : String) : Option Binary64 :=
  match Text.trim s.toList with
  | [] => some (.finite .zero)
  | cs => Binary64.ofText? cs

def textEqualsNumber (s : String) (n : Number) : Bool :=
  match textNumber? s with
  | some x => x.eq (.finite n.toFinite)
  | none => false

def boolAsNumber : Value → Value
  | .bool b => ofInt (if b then 1 else 0)
  | v => v

def looseEqual (left right : Value) : Bool :=
  match left, right with
  | .bool a, .bool b => a == b
  | _, _ =>
    match left.boolAsNumber, right.boolAsNumber with
    | .number n, .string s => textEqualsNumber s n
    | .string s, .number n => textEqualsNumber s n
    | l, r => strictEqual l r

end Value

end Formwork
