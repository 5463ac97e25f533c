import Formwork.Resolver
import Formwork.Schema.Item

/-!
# Strategies

How a resolved field is rendered: bound to the form state, or by a callback of the host.
-/

namespace Formwork

structure FieldRender (σ : Type) where
  field : String
  handle : Handle σ
  props : Props

namespace FieldRender

variable {σ : Type}

def render (r : FieldRender σ) (binding : Binding σ) : Run σ FormError (Node σ) :=
  (r.handle.render r.props binding).mapError .ofHost

def inspect (r : FieldRender σ) : String :=
  Inspect.record "FieldRender"
    [("field", Text.quoted r.field), ("component", Text.quoted r.handle.name),
      ("props", Props.inspect r.props)]

end FieldRender

structure FormItem (σ : Type) where
  fieldRender : FieldRender σ
  /-- The resolved props, after an entry `field`. -/
  componentProps : Props
  formItemProps : Option Props

namespace FormItem

variable {σ : Type}

/-- A prop that is itself named `field` replaces the entry. -/
def ofFieldRender (r : FieldRender σ) (formItemProps : Option Props) : FormItem σ :=
  ⟨r, (Record.empty.insert "field" (.string r.field)).insertAll r.props.entries, formItemProps⟩

def inspect (item : FormItem σ) : String :=
  Inspect.record "FormItem"
    [("field_render", item.fieldRender.inspect),
      ("component_props", Props.inspect item.componentProps),
      ("form_item_props", Item.inspectProps? item.formItemProps)]

end FormItem

inductive Strategy (σ : Type) where
  | callback (render : FormItem σ → Run σ HostError (Node σ))
  | controller (state : FormState σ)

namespace Strategy

variable {σ : Type}

def liveValues (strategy : Strategy σ) (s : σ) : Props :=
  match strategy with
  | .callback _ => .empty
  | .controller state => state.values s

/-- A binding that reads and writes the field's value in the form's state. -/
def boundTo (state : FormState σ) (field : String) (s : σ) : Binding σ where
  name := field
  value := state.value s field
  onChange := some fun value => .modify (state.setValue field value)
  error := state.error s field

def render (strategy : Strategy σ) (r : FieldRender σ) (formItemProps : Option Props) :
    Run σ FormError (Node σ) :=
  match strategy with
  | .callback render => (render (.ofFieldRender r formItemProps)).mapError .ofHost
  | .controller state => do
    let binding ← .read (boundTo state r.field)
    r.render binding

end Strategy

end Formwork
