import Formwork.Form.Field
import Formwork.Schema.Value

/-!
# Rendering a form

A pass renders the items in order over one context and gives an output for each visible item. A
renderer keeps its configuration and its resolver between passes.
-/

namespace Formwork

/-- The node of a visible item; for a failed one the placeholder, with the error. -/
structure FieldOutput (σ : Type) where
  key : String
  node : Node σ
  error : Option FieldError

namespace Form

variable {σ : Type}

def outputs (config : Config σ) (field : String) :
    Except FieldError (Option (Node σ)) → List (FieldOutput σ)
  | .ok (some node) => [⟨field, node, none⟩]
  | .ok none => []
  | .error e => [⟨field, .placeholder config.options.placeholder, some e⟩]

/-- Renders items; `seen` holds the fields of the ones before. -/
def renderItems (config : Config σ) (context : Context) (strategy : Strategy σ) :
    (seen : List String) → Schema σ → Run (Session σ) Empty (List (FieldOutput σ))
  | _, [] => pure []
  | seen, item :: rest => do
    if seen.contains item.field then Session.record (.duplicateField item.field)
    let result ← isolate item.field config.options.catchPanics
      (item.build config context strategy)
    let more ← renderItems config context strategy (item.field :: seen) rest
    pure (outputs config item.field result ++ more)

/-- One pass over a schema. Only the fields of the schema stay in the resolver's memo. -/
def render (config : Config σ) (items : Schema σ) (data : Props) (strategy : Strategy σ) :
    Run (Session σ) Empty (List (FieldOutput σ)) := do
  let live ← .read fun s => strategy.liveValues s.world.host
  let context := Context.merge live data config.options.precedence
  let outputs ← renderItems config context strategy [] items
  Session.updateResolver (·.retainFields (items.map (·.field)))
  Session.record (.passFinished outputs.length items.length)
  pure outputs

/-- Decodes all items first; a value that does not decode starts no pass. -/
def renderValue (config : Config σ) (schema : Value) (data : Props) (strategy : Strategy σ) :
    Run (Session σ) SchemaError (List (FieldOutput σ)) :=
  match Schema.ofValue schema with
  | .ok items => (render config items data strategy).lift
  | .error e => .fail e

end Form

structure Renderer (σ : Type) where
  config : Config σ
  resolver : Resolver σ

namespace Renderer

variable {σ ε α : Type}

def ofConfig (config : Config σ) : Renderer σ := ⟨config, .empty⟩

/-- Clears the resolver's cache as well. -/
def setConfig (r : Renderer σ) (config : Config σ) : Renderer σ := ⟨config, r.resolver.clear⟩

/-- Runs a pass of the renderer's configuration in a world. -/
def run (pass : Config σ → Run (Session σ) ε α) : Run (World σ × Renderer σ) ε α := fun s =>
  let (outcome, session) := pass s.2.config ⟨s.1, s.2.resolver⟩
  (outcome, session.world, { s.2 with resolver := session.resolver })

def render (items : Schema σ) (data : Props) (strategy : Strategy σ) :
    Run (World σ × Renderer σ) Empty (List (FieldOutput σ)) :=
  run fun config => Form.render config items data strategy

def renderValue (schema : Value) (data : Props) (strategy : Strategy σ) :
    Run (World σ × Renderer σ) SchemaError (List (FieldOutput σ)) :=
  run fun config => Form.renderValue config schema data strategy

end Renderer

end Formwork
