import Formwork.Inspect

/-!
# Form state

Access to the live values of a form within the host's state, and an owner that keeps them in memory.
-/

namespace Formwork

structure ValidationError where
  kind : String
  message : String
deriving DecidableEq

def ValidationError.inspect (e : ValidationError) : String :=
  Inspect.record "ValidationError"
    [("kind", Text.quoted e.kind), ("message", Text.quoted e.message)]

/-- Access to the live values within a host state `σ`. -/
structure FormState (σ : Type) where
  values : σ → Props
  value : σ → String → Value
  setValue : String → Value → σ → σ
  error : σ → String → Option ValidationError

namespace FormState

/-- Reads one field from all values. -/
def valueFrom {σ : Type} (values : σ → Props) (s : σ) (name : String) : Value :=
  ((values s).get? name).getD .null

end FormState

structure MemoryState where
  values : Props
  errors : Record ValidationError

namespace MemoryState

def ofValues (values : Props) : MemoryState := ⟨values, .empty⟩

def value (s : MemoryState) (name : String) : Value := (s.values.get? name).getD .null

def setValue (s : MemoryState) (name : String) (value : Value) : MemoryState :=
  { s with values := s.values.insert name value }

def error? (s : MemoryState) (name : String) : Option ValidationError := s.errors.get? name

def setError (s : MemoryState) (name : String) (e : ValidationError) : MemoryState :=
  { s with errors := s.errors.insert name e }

def clearError (s : MemoryState) (name : String) : MemoryState :=
  { s with errors := s.errors.erase name }

/-- The form state of an in-memory part of the host state. -/
def formState {σ : Type} (get : σ → MemoryState) (put : MemoryState → σ → σ) : FormState σ where
  values s := (get s).values
  value s name := (get s).value name
  setValue name value s := put ((get s).setValue name value) s
  error s name := (get s).error? name

end MemoryState

end Formwork
