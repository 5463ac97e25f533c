import Formwork.Event
import Formwork.Inspect

/-!
# Functions

The functions that markers call. Built-in names are protected from registration and replaced by
overriding only.
-/

namespace Formwork

abbrev Function (σ : Type) := List Value → Run σ HostError Value

def dynamicCommonName : String := "getDynamicCommon"

def dynamicCommon {σ : Type} : Function σ := fun args => pure (args.head?.getD .null)

structure Functions (σ : Type) where
  table : Record (Function σ)
  builtins : List String

structure FunctionConflict where
  name : String

def FunctionConflict.message (e : FunctionConflict) : String :=
  "function `" ++ e.name ++ "` conflicts with a built-in; use `override_builtin` to replace it"

namespace Functions

variable {σ : Type}

def initial : Functions σ :=
  ⟨Record.empty.insert dynamicCommonName dynamicCommon, [dynamicCommonName]⟩

def isBuiltin (fs : Functions σ) (name : String) : Bool := fs.builtins.contains name

/-- Puts a function under a name, built-in or not. -/
def replace (fs : Functions σ) (name : String) (f : Function σ) : Functions σ :=
  { fs with table := fs.table.insert name f }

def register (fs : Functions σ) (name : String) (f : Function σ) :
    Except FunctionConflict (Functions σ) :=
  if fs.isBuiltin name then .error ⟨name⟩ else .ok (fs.replace name f)

def get? (fs : Functions σ) (name : String) : Option (Function σ) := fs.table.get? name

def contains (fs : Functions σ) (name : String) : Bool := fs.table.contains name

def call (fs : Functions σ) (name : String) (args : List Value) : Run σ FormError Value :=
  match fs.get? name with
  | some f => (f args).mapError (.functionFailed name)
  | none => .fail (.functionNotFound name)

theorem eq_dynamicCommon_of_initial {name : String} {f : Function σ}
    (h : (initial : Functions σ).get? name = some f) : f = dynamicCommon := by
  have only : Entries.get? name [(dynamicCommonName, dynamicCommon)] = some f := h
  unfold Entries.get? at only
  split at only
  · cases only
    rfl
  · cases only

def inspect (fs : Functions σ) : String :=
  Inspect.record "FunctionMap" [("functions", Inspect.list (fs.table.sortedKeys.map Text.quoted))]

end Functions

end Formwork
