import Formwork.Function
import Formwork.Middleware
import Formwork.Options

/-!
# Configuration

Registry, functions, middlewares and options of a renderer. Registry and middlewares are shared; the
caller supplies a new number whenever one of them changes.
-/

namespace Formwork

structure Config (σ : Type) where
  registry : Shared (Registry σ)
  middlewares : Shared (List (Middleware σ))
  functions : Functions σ
  options : Options

namespace Config

variable {σ : Type}

def initial (registry middlewares : Nat) : Config σ :=
  ⟨⟨registry, .empty⟩, ⟨middlewares, []⟩, .initial, .initial⟩

def withComponent (c : Config σ) (id : Nat) (name : String) (handle : Handle σ) : Config σ :=
  { c with registry := ⟨id, c.registry.content.insert name handle⟩ }

/-- Appends a middleware. -/
def withMiddleware (c : Config σ) (id : Nat) (m : Middleware σ) : Config σ :=
  { c with middlewares := ⟨id, c.middlewares.content ++ [m]⟩ }

def withFunction (c : Config σ) (name : String) (f : Function σ) :
    Except FunctionConflict (Config σ) := do
  let functions ← c.functions.register name f
  pure { c with functions := functions }

def inspect (c : Config σ) : String :=
  Inspect.record "FormConfig"
    [("registry", Registry.inspect c.registry.content),
      ("middlewares", Inspect.list (c.middlewares.content.map Middleware.inspect)),
      ("functions", c.functions.inspect), ("options", c.options.inspect)]

end Config

end Formwork
