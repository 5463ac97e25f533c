import Formwork.Text.Quoted
import Formwork.Value.Text

/-!
# Decoding

The errors of decoding a record: a part of another kind, a missing field, or a list of the wrong
length, since a record may also be given as the list of its fields.
-/

namespace Formwork

inductive DecodeError where
  | invalidType (found : Value) (expected : String)
  | missingField (name : String)
  | invalidLength (length : Nat) (expected : String)

namespace DecodeError

/-- The description of a value in decode errors: scalars with content, others by kind. -/
def describe : Value → String
  | .null => "null"
  | .bool b => "boolean `" ++ Value.boolText b ++ "`"
  | .number (.integer n _) => "integer `" ++ toString n ++ "`"
  | .number (.float x) => "floating point `" ++ x.text .document ++ "`"
  | .string s => "string " ++ Text.quoted s
  | .array _ => "sequence"
  | .object _ => "map"

def message : DecodeError → String
  | .invalidType found expected => "invalid type: " ++ describe found ++ ", expected " ++ expected
  | .missingField name => "missing field `" ++ name ++ "`"
  | .invalidLength length expected =>
    "invalid length " ++ toString length ++ ", expected " ++ expected

end DecodeError

namespace Decode

def text : Value → Except DecodeError String
  | .string s => .ok s
  | v => .error (.invalidType v "a string")

def props : Value → Except DecodeError Props
  | .object members => .ok (.ofList members)
  | v => .error (.invalidType v "a map")

/-- Null stands for no props. -/
def optionalProps : Value → Except DecodeError (Option Props)
  | .null => .ok none
  | v => (props v).map some

def require {α : Type} (name : String) : Option α → Except DecodeError α
  | some a => .ok a
  | none => .error (.missingField name)

/-- Refuses surplus entries of a positional record. -/
def noneLeft (length : Nat) : List Value → Except DecodeError Unit
  | [] => .ok ()
  | _ :: _ => .error (.invalidLength length "fewer elements in array")

end Decode

end Formwork
