import Formwork.Config
import Formwork.Form.Strategy
import Formwork.Props

/-!
# Fields

Building one item of a pass: its props are resolved, a hidden item ends there, and any other is
resolved to a handle and rendered. `isolate` contains failures.
-/

namespace Formwork

namespace Item

variable {σ : Type}

/-- The node of an item, none when it is hidden. -/
def build (item : Item σ) (config : Config σ) (context : Context) (strategy : Strategy σ) :
    Run (Session σ) FormError (Option (Node σ)) := do
  let props ← Session.onWorld (item.props.resolve context config.functions)
  if Props.isHidden props then
    Session.record (.fieldHidden item.field)
    pure none
  else
    let handle ← Resolver.resolve item.field item.reference props config.registry
      (.ofExternal config.middlewares)
    let node ← Session.onHost (strategy.render ⟨item.field, handle, props⟩ item.formItemProps)
    pure (some node)

end Item

/-- Attributes errors to a field, and panics as well when they are caught. -/
def isolate {σ α : Type} (field : String) (catchPanics : Bool)
    (m : Run (Session σ) FormError α) : Run (Session σ) Empty (Except FieldError α) := do
  let guarded := if catchPanics then m.catchPanic fun p => .panicked p.text else m
  match ← guarded.attempt with
  | .ok a => pure (.ok a)
  | .error source =>
    Session.record (.fieldFailed ⟨field, source⟩)
    pure (.error ⟨field, source⟩)

end Formwork
