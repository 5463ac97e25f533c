import Formwork.Component
import Formwork.Event
import Formwork.Value.LeadingInteger

/-!
# Middlewares

A middleware is a wrapper of components with a filter on the resolved props. Built-in middlewares
come first, and the leftmost active one is the outermost wrapper.
-/

namespace Formwork

/-- A wrapper of handles; it may return its argument. -/
abbrev Hoc (σ : Type) := Handle σ → Run σ Empty (Handle σ)

abbrev Filter (σ : Type) := Props → Run σ Empty Bool

/-- A middleware whose parts may be missing. -/
structure Middleware (σ : Type) where
  name : String
  hoc : Option (Hoc σ)
  filter : Option (Filter σ)

namespace Middleware

variable {σ : Type}

def always (name : String) (hoc : Hoc σ) : Middleware σ :=
  ⟨name, some hoc, some fun _ => pure true⟩

def inspect (m : Middleware σ) : String :=
  Inspect.record "Middleware"
    [("name", Text.quoted m.name), ("hoc", Inspect.bool m.hoc.isSome),
      ("filter", Inspect.bool m.filter.isSome)]

/-- Applies the integer reading before the handler. -/
def coerce (onChange : Option (Handler σ)) : Handler σ := fun value =>
  match onChange with
  | some handler => handler value.leadingInteger
  | none => pure ()

def asNumber (inner : Component σ) : Component σ where
  name := "withValueAsNumber(" ++ inner.name ++ ")"
  render props binding :=
    inner.render props { binding with onChange := some (coerce binding.onChange) }

/-- Applies where the prop `valueAsNumber` is truthy. -/
def withValueAsNumber : Middleware σ where
  name := "withValueAsNumber"
  hoc := some fun inner => pure (.ofComponent (asNumber inner.toComponent))
  filter := some fun props =>
    pure (match props.get? "valueAsNumber" with
      | some value => value.isTruthy
      | none => false)

def builtins : List (Middleware σ) := [withValueAsNumber]

end Middleware

/-- Built-in middlewares and the caller's, in this order. -/
structure Pipeline (σ : Type) where
  builtin : List (Middleware σ)
  external : Shared (List (Middleware σ))

namespace Pipeline

variable {σ : Type}

def ofExternal (external : Shared (List (Middleware σ))) : Pipeline σ :=
  ⟨Middleware.builtins, external⟩

/-- Every middleware, with a mark for the built-in ones. -/
def entries (p : Pipeline σ) : List (Middleware σ × Bool) :=
  p.builtin.map (·, true) ++ p.external.content.map (·, false)

/-- The filters of the entries, or the first entry with a missing part. -/
def filters? : List (Middleware σ × Bool) → Except (Middleware σ × Bool) (List (Filter σ))
  | [] => .ok []
  | (m, builtin) :: rest =>
    match m.hoc, m.filter with
    | some _, some filter => (filters? rest).map (filter :: ·)
    | _, _ => .error (m, builtin)

def runFilters (props : Props) : List (Filter σ) → Run σ Empty (List Bool)
  | [] => pure []
  | filter :: rest => do
    let flag ← filter props
    let flags ← runFilters props rest
    pure (flag :: flags)

/-- Whether each entry applies. All entries are checked before any filter runs. -/
def select (p : Pipeline σ) (props : Props) : Run (World σ) FormError (List Bool) :=
  match filters? p.entries with
  | .ok filters => World.onHost (runFilters props filters).lift
  | .error (m, builtin) => do
    if builtin then World.record (.incompleteBuiltin m.name)
    .fail (.middlewareInvalid m.name builtin)

/-- The wrappers of the entries whose flag is set. -/
def active (p : Pipeline σ) (flags : List Bool) : List (Hoc σ) :=
  (p.entries.zip flags).filterMap fun (entry, flag) => if flag then entry.1.hoc else none

/-- Wraps from the right, so that the first wrapper ends up outermost. -/
def wrap : List (Hoc σ) → Handle σ → Run σ Empty (Handle σ)
  | [], handle => pure handle
  | hoc :: rest, handle => do
    let inner ← wrap rest handle
    hoc inner

def compose (p : Pipeline σ) (handle : Handle σ) (flags : List Bool) :
    Run σ Empty (Handle σ) :=
  wrap (p.active flags) handle

def apply (p : Pipeline σ) (handle : Handle σ) (props : Props) :
    Run (World σ) FormError (Handle σ) := do
  let flags ← p.select props
  World.onHost (p.compose handle flags).lift

end Pipeline

end Formwork
