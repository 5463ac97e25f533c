import Formwork.Schema.ItemSpec

/-!
# Schemas from values

A schema is an array of items. The first entry that does not decode is reported.
-/

namespace Formwork

inductive SchemaError where
  | notASequence (found : String)
  | invalidItem (index : Nat) (source : DecodeError)
  | json
  | toml

def SchemaError.message : SchemaError → String
  | .notASequence found => "form schema must be an array of items, found " ++ found
  | .invalidItem index source =>
    "invalid schema item at index " ++ toString index ++ ": " ++ source.message
  | .json => "failed to parse JSON schema document"
  | .toml => "failed to parse TOML schema document"

namespace Schema

variable {σ : Type}

/-- Decodes entries, of which the first has this index. -/
def ofEntries (index : Nat) : List Value → Except SchemaError (Schema σ)
  | [] => .ok []
  | entry :: rest =>
    match ItemSpec.ofValue entry with
    | .ok spec => (ofEntries (index + 1) rest).map (spec.toItem :: ·)
    | .error e => .error (.invalidItem index e)

def ofValue (v : Value) : Except SchemaError (Schema σ) :=
  match v with
  | .array entries => ofEntries 0 entries
  | v => .error (.notASequence v.typeName)

end Schema

end Formwork
