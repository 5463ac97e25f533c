import Formwork.Error
import Formwork.Node
import Formwork.State

/-!
# Components

Components, handles and references. The resolver's memo compares handles by identity; a reference
names a component by key, holds a handle, or holds a prebuilt node.
-/

namespace Formwork

/-- The name, value, change handler and error that a component is rendered with. -/
structure Binding (σ : Type) where
  name : String
  value : Value
  onChange : Option (Handler σ)
  error : Option ValidationError

namespace Binding

variable {σ : Type}

def ofName (name : String) : Binding σ := ⟨name, .null, none, none⟩

def inspect (b : Binding σ) : String :=
  Inspect.record "FieldBinding"
    [("name", Text.quoted b.name), ("value", b.value.inspect),
      ("on_change", Node.inspectHandler b.onChange),
      ("error", Inspect.option (b.error.map ValidationError.inspect))]

end Binding

structure Component (σ : Type) where
  name : String
  render : Props → Binding σ → Run σ HostError (Node σ)

/-- A shared value with an identity: equal numbers stand for the same value. -/
structure Shared (α : Type) where
  id : Nat
  content : α

/-- The identity of a handle, by where it was allocated. -/
inductive Identity where
  /-- Allocated and shared by the host. -/
  | shared (id : Nat)
  /-- Allocated by a wrapper and not yet stored. -/
  | fresh
  /-- Allocated in the resolver's build of this number. -/
  | built (build : Nat)
deriving DecidableEq

structure Handle (σ : Type) extends Component σ where
  identity : Identity

namespace Handle

variable {σ : Type}

def ofComponent (c : Component σ) : Handle σ := { c with identity := .fresh }

/-- Replaces a fresh identity by the number of the build. -/
def settle (build : Nat) (h : Handle σ) : Handle σ :=
  match h.identity with
  | .fresh => { h with identity := .built build }
  | _ => h

end Handle

/-- A component as a schema item refers to it. -/
inductive Reference (σ : Type) where
  | element (node : Shared (Node σ))
  | named (key : String)
  | direct (handle : Handle σ)

namespace Reference

/-- The identity of a reference, as the memo compares it. -/
inductive Id where
  | element (id : Nat)
  | named (key : String)
  | direct (identity : Identity)
deriving DecidableEq

variable {σ : Type}

def id : Reference σ → Id
  | .element node => .element node.id
  | .named key => .named key
  | .direct handle => .direct handle.identity

def inspect : Reference σ → String
  | .element node => Inspect.tuple "Element" [node.content.inspect]
  | .named key => Inspect.tuple "Key" [Text.quoted key]
  | .direct handle => Inspect.tuple "Direct" [Text.quoted handle.name]

end Reference

/-- The registered components by name. -/
abbrev Registry (σ : Type) := Record (Handle σ)

namespace Registry

variable {σ : Type}

def inspect (r : Registry σ) : String :=
  Inspect.record "ComponentRegistry"
    [("components", Inspect.list ((Record.sortedKeys r).map Text.quoted))]

end Registry

def prebuilt {σ : Type} (node : Node σ) : Component σ := ⟨"Prebuilt", fun _ _ => pure node⟩

/-- Looks the reference up, without middlewares. -/
def Reference.resolve {σ : Type} (r : Reference σ) (registry : Registry σ) :
    Except FormError (Handle σ) :=
  match r with
  | .element node => .ok (.ofComponent (prebuilt node.content))
  | .named key =>
    match registry.get? key with
    | some handle => .ok handle
    | none => .error (.componentNotFound key)
  | .direct handle => .ok handle

end Formwork
