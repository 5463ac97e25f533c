import Formwork.Document.Json
import Formwork.Document.Toml
import Formwork.Schema.Value

/-!
# Schema documents

A JSON document is the array of items itself; a TOML document has the items under `schema`.
-/

namespace Formwork.Schema

variable {σ : Type}

def ofJson (text : String) : Except SchemaError (Schema σ) :=
  match Json.read? text with
  | some v => ofValue v
  | none => .error .json

def ofToml (text : String) : Except SchemaError (Schema σ) :=
  match (Toml.parse? text).bind Toml.toMembers? with
  | none => .error .toml
  | some document =>
    match Entries.get? "schema" document with
    | some items => ofValue items
    | none => .error (.notASequence "a document without a `schema` key")

end Formwork.Schema
