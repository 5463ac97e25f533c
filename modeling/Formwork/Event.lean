import Formwork.Error
import Formwork.Run

/-!
# Events

The log records of the engine, and the state that it runs over: the host's state together with the
log.
-/

namespace Formwork

inductive Event.Level where
  | debug
  | warn
  | error
deriving DecidableEq

inductive Event where
  | propResolved (key : String) (value : Value)
  | malformedMarker (text : String)
  | incompleteBuiltin (middleware : String)
  | fieldHidden (field : String)
  | componentReused (field : String)
  | componentBuilt (name field : String)
  | fieldFailed (e : FieldError)
  | duplicateField (field : String)
  | passFinished (outputs items : Nat)

namespace Event

def level : Event → Level
  | .propResolved _ _ => .debug
  | .malformedMarker _ => .warn
  | .incompleteBuiltin _ => .error
  | .fieldHidden _ => .debug
  | .componentReused _ => .debug
  | .componentBuilt _ _ => .debug
  | .fieldFailed _ => .error
  | .duplicateField _ => .warn
  | .passFinished _ _ => .debug

def message : Event → String
  | .propResolved key value => "prop `" ++ key ++ "` resolved to " ++ value.text
  | .malformedMarker text => "malformed function marker `" ++ text ++ "`, using null"
  | .incompleteBuiltin middleware => "built-in middleware `" ++ middleware ++ "` is incomplete"
  | .fieldHidden field => "field `" ++ field ++ "` is hidden"
  | .componentReused field => "reuse enhanced component for field `" ++ field ++ "`"
  | .componentBuilt name field => "built component `" ++ name ++ "` for field `" ++ field ++ "`"
  | .fieldFailed e => e.message
  | .duplicateField field => "duplicate field key `" ++ field ++ "` in schema"
  | .passFinished outputs items =>
    "rendered " ++ toString outputs ++ " of " ++ toString items ++ " fields"

end Event

/-- The host's state and the log. -/
structure World (σ : Type) where
  host : σ
  events : List Event

namespace World

variable {σ ε α : Type}

def onHost (m : Run σ ε α) : Run (World σ) ε α :=
  m.onPart World.host fun s w => { w with host := s }

def record (e : Event) : Run (World σ) ε Unit :=
  .modify fun w => { w with events := w.events ++ [e] }

end World

end Formwork
