import Formwork.Document.Json
import Formwork.Document.Toml
import Formwork.Options
import Formwork.Text.Quoted

/-!
# Options documents

Options from JSON and TOML. Missing keys take the defaults and unknown keys are ignored; a
precedence may also be written as the only key of a record. In JSON, repeated known keys are
refused, and an array of the options in order is accepted.
-/

namespace Formwork

inductive OptionsError where
  | unsupportedFormat (extension : String)
  | json
  | toml

def OptionsError.message : OptionsError → String
  | .unsupportedFormat extension => "unsupported options format: " ++ Text.quoted extension
  | .json => "failed to parse JSON options"
  | .toml => "failed to parse TOML options"

namespace Options

/-! ## JSON -/

def jsonText? : JsonTree → Option String
  | .string pieces => Json.text? pieces
  | _ => none

def jsonBool? : JsonTree → Option Bool
  | .bool b => some b
  | _ => none

def jsonPrecedence? : JsonTree → Option Precedence
  | .string pieces => (Json.text? pieces).bind Precedence.ofName?
  | .object [(key, .null)] => (Json.text? key).bind Precedence.ofName?
  | _ => none

/-- Reads members behind the ones whose keys are in `seen`. -/
def ofJsonMembers (seen : List String) (o : Options) :
    List (List StringPiece × JsonTree) → Option Options
  | [] => some o
  | (key, tree) :: rest => do
    let key ← Json.text? key
    if seen.contains key then none
    else if key = "merge_precedence" then
      let p ← jsonPrecedence? tree
      ofJsonMembers (key :: seen) { o with precedence := p } rest
    else if key = "placeholder" then
      let s ← jsonText? tree
      ofJsonMembers (key :: seen) { o with placeholder := s } rest
    else if key = "catch_panics" then
      let b ← jsonBool? tree
      ofJsonMembers (key :: seen) { o with catchPanics := b } rest
    else ofJsonMembers seen o rest

def ofJsonItems (items : List JsonTree) : Option Options :=
  match items with
  | [] => some initial
  | p :: rest => do
    let p ← jsonPrecedence? p
    match rest with
    | [] => pure { initial with precedence := p }
    | s :: rest =>
      let s ← jsonText? s
      match rest with
      | [] => pure { initial with precedence := p, placeholder := s }
      | [b] => (jsonBool? b).map fun b => ⟨p, s, b⟩
      | _ => none

def ofJsonTree : JsonTree → Option Options
  | .object members => ofJsonMembers [] initial members
  | .array items => ofJsonItems items
  | _ => none

def ofJson (text : String) : Except OptionsError Options :=
  match (Json.parse? text).bind ofJsonTree with
  | some o => .ok o
  | none => .error .json

/-! ## TOML -/

def isEmptyToml : Toml → Bool
  | .table _ entries => entries.isEmpty
  | .array items => items.isEmpty
  | _ => false

def tomlPrecedence? : Toml → Option Precedence
  | .string s => Precedence.ofName? s
  | .table _ [(key, v)] => if isEmptyToml v then Precedence.ofName? key else none
  | _ => none

def tomlMember (o : Options) (key : String) (v : Toml) : Option Options :=
  if key = "merge_precedence" then
    (tomlPrecedence? v).map fun p => { o with precedence := p }
  else if key = "placeholder" then
    match v with
    | .string s => some { o with placeholder := s }
    | _ => none
  else if key = "catch_panics" then
    match v with
    | .bool b => some { o with catchPanics := b }
    | _ => none
  else some o

def ofTomlEntries (o : Options) : Entries Toml → Option Options
  | [] => some o
  | (key, v) :: rest => do
    let o ← tomlMember o key v
    ofTomlEntries o rest

def ofToml (text : String) : Except OptionsError Options :=
  match (Toml.parse? text).bind (ofTomlEntries initial) with
  | some o => .ok o
  | none => .error .toml

def ofText (text extension : String) : Except OptionsError Options :=
  if extension = "toml" ∨ extension = "tml" then ofToml text
  else if extension = "json" then ofJson text
  else .error (.unsupportedFormat extension)

end Options

end Formwork
