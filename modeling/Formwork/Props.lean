import Formwork.Marker

/-!
# Props

Resolution of the props of an item: markers, expressions under `disabled` and `hidden`, context keys
under `data`, and literals.
-/

namespace Formwork

/-- The kinds of props, by how they are resolved. -/
inductive PropSource where
  | literal (value : Value)
  | marker (text : String)
  | expression (text : String)
  | data (key : String)

namespace PropSource

def ofText (key text : String) : PropSource :=
  if text.toList.head? = some '#' then .marker text
  else if key = "disabled" ∨ key = "hidden" then .expression text
  else if key = "data" then .data text
  else .literal (.string text)

def classify (key : String) (value : Value) : PropSource :=
  match value with
  | .string text => ofText key text
  | value => .literal value

end PropSource

def Context.evaluate (context : Context) (text : String) : Except FormError Value :=
  match Expression.evaluate text context.scope with
  | .ok value => .ok value
  | .error e => .error (.expression text e)

variable {σ : Type}

def PropSource.resolve (context : Context) (functions : Functions σ) :
    PropSource → Run (World σ) FormError Value
  | .literal value => pure value
  | .marker text => Marker.resolve text context functions
  | .expression text => .ofExcept (context.evaluate text)
  | .data key => pure (context.lookup key)

namespace Props

/-- Resolves the props one after the other and stops at the first error. -/
def resolveEntries (context : Context) (functions : Functions σ) :
    Entries Value → Run (World σ) FormError (Entries Value)
  | [] => pure []
  | (key, raw) :: rest => do
    let value ← (PropSource.classify key raw).resolve context functions
    World.record (.propResolved key value)
    let more ← resolveEntries context functions rest
    pure ((key, value) :: more)

def resolve (context : Context) (functions : Functions σ) (props : Props) :
    Run (World σ) FormError Props := do
  let entries ← resolveEntries context functions props.entries
  pure (Record.ofList entries)

/-- Whether resolved props ask for the field to be left out. -/
def isHidden (props : Props) : Bool :=
  match props.get? "hidden" with
  | some value => value.isTruthy
  | none => false

end Props

end Formwork
