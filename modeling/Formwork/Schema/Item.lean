import Formwork.Component

/-!
# Schema items

A field of a form: its key, its component, the raw props of the component, and the props of the
surrounding form item.
-/

namespace Formwork

structure Item (σ : Type) where
  field : String
  reference : Reference σ
  props : Props
  formItemProps : Option Props

namespace Item

variable {σ : Type}

def ofReference (field : String) (reference : Reference σ) : Item σ :=
  ⟨field, reference, .empty, none⟩

def withProp (item : Item σ) (key : String) (value : Value) : Item σ :=
  { item with props := item.props.insert key value }

def inspectProps? (props : Option Props) : String := Inspect.option (props.map Props.inspect)

def inspect (item : Item σ) : String :=
  Inspect.record "SchemaItem"
    [("field", Text.quoted item.field), ("component", item.reference.inspect),
      ("component_props", Props.inspect item.props),
      ("form_item_props", inspectProps? item.formItemProps)]

end Item

/-- Items in the order in which they are rendered. -/
abbrev Schema (σ : Type) := List (Item σ)

end Formwork
