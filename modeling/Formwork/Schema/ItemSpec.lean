import Formwork.Schema.Decode
import Formwork.Schema.Item

/-!
# Item documents

The document form of an item, with components by name. It is decoded from an object in any order of
keys, or from the list of its fields.
-/

namespace Formwork

structure ItemSpec where
  field : String
  component : String
  componentProps : Props
  formItemProps : Option Props

namespace ItemSpec

structure Collected where
  field : Option String
  component : Option String
  componentProps : Option Props
  formItemProps : Option (Option Props)

def Collected.empty : Collected := ⟨none, none, none, none⟩

/-- Decodes one member; other keys are passed over. -/
def Collected.put (acc : Collected) (key : String) (value : Value) : Except DecodeError Collected :=
  if key = "field" then do
    let s ← Decode.text value
    pure { acc with field := some s }
  else if key = "component" then do
    let s ← Decode.text value
    pure { acc with component := some s }
  else if key = "componentProps" then do
    let p ← Decode.props value
    pure { acc with componentProps := some p }
  else if key = "formItemProps" then do
    let p ← Decode.optionalProps value
    pure { acc with formItemProps := some p }
  else .ok acc

def Collected.putAll (acc : Collected) : List (String × Value) → Except DecodeError Collected
  | [] => .ok acc
  | (key, value) :: rest => do
    let acc ← acc.put key value
    acc.putAll rest

/-- Only the field and its component are required. -/
def Collected.finish (acc : Collected) : Except DecodeError ItemSpec := do
  let field ← Decode.require "field" acc.field
  let component ← Decode.require "component" acc.component
  pure ⟨field, component, acc.componentProps.getD .empty, acc.formItemProps.getD none⟩

def ofMembers (members : List (String × Value)) : Except DecodeError ItemSpec := do
  let acc ← Collected.empty.putAll members
  acc.finish

def tooShort (length : Nat) : DecodeError :=
  .invalidLength length "struct SchemaItemSpec with 4 elements"

def ofItems (items : List Value) : Except DecodeError ItemSpec :=
  match items with
  | [] => .error (tooShort 0)
  | field :: rest => do
    let field ← Decode.text field
    match rest with
    | [] => .error (tooShort 1)
    | component :: rest =>
      let component ← Decode.text component
      match rest with
      | [] => pure ⟨field, component, .empty, none⟩
      | componentProps :: rest =>
        let componentProps ← Decode.props componentProps
        match rest with
        | [] => pure ⟨field, component, componentProps, none⟩
        | formItemProps :: rest =>
          let formItemProps ← Decode.optionalProps formItemProps
          Decode.noneLeft items.length rest
          pure ⟨field, component, componentProps, formItemProps⟩

def ofValue (v : Value) : Except DecodeError ItemSpec :=
  match v with
  | .object members => ofMembers members
  | .array items => ofItems items
  | v => .error (.invalidType v "struct SchemaItemSpec")

def toValue (s : ItemSpec) : Value :=
  let formItemProps := match s.formItemProps with
    | some props => [("formItemProps", Value.ofProps props)]
    | none => []
  .object ([("field", .string s.field), ("component", .string s.component),
    ("componentProps", .ofProps s.componentProps)] ++ formItemProps)

def toItem {σ : Type} (s : ItemSpec) : Item σ :=
  ⟨s.field, .named s.component, s.componentProps, s.formItemProps⟩

end ItemSpec

def ValidationError.ofMembers (kind message : Option String) :
    List (String × Value) → Except DecodeError ValidationError
  | [] => do
    let kind ← Decode.require "kind" kind
    let message ← Decode.require "message" message
    pure ⟨kind, message⟩
  | (key, value) :: rest =>
    if key = "kind" then do
      let s ← Decode.text value
      ofMembers (some s) message rest
    else if key = "message" then do
      let s ← Decode.text value
      ofMembers kind (some s) rest
    else ofMembers kind message rest

def ValidationError.ofItems (items : List Value) : Except DecodeError ValidationError :=
  let expected := "struct ValidationError with 2 elements"
  match items with
  | [] => .error (.invalidLength 0 expected)
  | kind :: rest => do
    let kind ← Decode.text kind
    match rest with
    | [] => .error (.invalidLength 1 expected)
    | message :: rest =>
      let message ← Decode.text message
      Decode.noneLeft items.length rest
      pure ⟨kind, message⟩

def ValidationError.ofValue (v : Value) : Except DecodeError ValidationError :=
  match v with
  | .object members => ofMembers none none members
  | .array items => ofItems items
  | v => .error (.invalidType v "struct ValidationError")

end Formwork
