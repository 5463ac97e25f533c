import Formwork.Form.Renderer
import Formwork.Proofs.Form.Memo

/-!
# Passes side by side

Relational reasoning about passes over two sessions. Resolution of props is independent of the log,
and passes over two faithful memos agree.
-/

namespace Formwork

variable {σ ε α : Type}

def Functions.Alike (R : σ → σ → Prop) (functions : Functions σ) : Prop :=
  ∀ name f, functions.get? name = some f → ∀ args, Run.Alike R Eq (f args) (f args)

theorem Functions.alike_eq (functions : Functions σ) : functions.Alike Eq :=
  fun _ f _ args => .self (f args)

section Resolution

variable {R : σ → σ → Prop} {functions : Functions σ}

theorem Functions.Alike.call (h : functions.Alike R) (name : String) (args : List Value) :
    Run.Alike R Eq (functions.call name args) (functions.call name args) := by
  unfold Functions.call
  split
  · next f found => exact (h name f found args).mapError _
  · exact .fail _

theorem Marker.resolve_alike (h : functions.Alike R) (text : String) (context : Context) :
    Run.Alike (World.Over R) Eq (Marker.resolve text context functions)
      (Marker.resolve text context functions) := by
  unfold Marker.resolve
  split
  · exact World.onHost_alike (h.call _ _)
  · exact (World.record_alike _ _).bind_eq fun _ => .pure rfl

theorem PropSource.resolve_alike (h : functions.Alike R) (context : Context)
    (source : PropSource) :
    Run.Alike (World.Over R) Eq (source.resolve context functions)
      (source.resolve context functions) := by
  cases source with
  | literal value => exact .pure rfl
  | marker text => exact Marker.resolve_alike h text context
  | expression text => exact .ofExcept _
  | data key => exact .pure rfl

theorem Props.resolveEntries_alike (h : functions.Alike R) (context : Context)
    (entries : Entries Value) :
    Run.Alike (World.Over R) Eq (resolveEntries context functions entries)
      (resolveEntries context functions entries) := by
  induction entries with
  | nil => exact .pure rfl
  | cons entry rest ih =>
      refine (PropSource.resolve_alike h context _).bind_eq fun value => ?_
      exact (World.record_alike _ _).bind_eq fun _ => ih.bind_eq fun more => .pure rfl

theorem Props.resolve_alike (h : functions.Alike R) (context : Context) (props : Props) :
    Run.Alike (World.Over R) Eq (props.resolve context functions)
      (props.resolve context functions) :=
  (resolveEntries_alike h context props.entries).bind_eq fun _ => .pure rfl

end Resolution

/-- The callback does not distinguish handles of one component. -/
def Strategy.SeesComponents : Strategy σ → Prop
  | .callback render => ∀ (item : FormItem σ) (handle : Handle σ),
      handle.SameComponent item.fieldRender.handle →
        render { item with fieldRender := { item.fieldRender with handle := handle } } =
          render item
  | .controller _ => True

theorem Strategy.SeesComponents.render_eq {strategy : Strategy σ} (h : strategy.SeesComponents)
    {handle handle' : Handle σ} (same : handle.SameComponent handle') (field : String)
    (props : Props) (formItemProps : Option Props) :
    strategy.render ⟨field, handle, props⟩ formItemProps =
      strategy.render ⟨field, handle', props⟩ formItemProps := by
  cases strategy with
  | callback render =>
      exact congrArg (Run.mapError FormError.ofHost)
        (h (.ofFieldRender ⟨field, handle', props⟩ formItemProps) handle same)
  | controller state =>
      have rendered : handle.render = handle'.render := congrArg Component.render same
      simp only [Strategy.render, FieldRender.render, rendered]

namespace Session

variable {known : Reference σ → Prop} {config : Config σ}

abbrev TwinFor (known : Reference σ → Prop) (config : Config σ) : Session σ → Session σ → Prop :=
  Twin known config.registry.content (.ofExternal config.middlewares)

end Session

section SideBySide

open Session

variable {known : Reference σ → Prop} {config : Config σ} {strategy : Strategy σ}

/-- The host conditions under which a memo is invisible: wrapping depends on the handle alone,
callbacks do not distinguish handles of one component, and known references of equal identity are
equal. -/
structure Unnoticed (known : Reference σ → Prop) (config : Config σ) (strategy : Strategy σ) :
    Prop where
  steady : (Pipeline.ofExternal config.middlewares).Steady
  unique : ∀ r r', known r → known r' → r.id = r'.id → r = r'
  sees : strategy.SeesComponents

theorem Item.build_alike (h : Unnoticed known config strategy) (context : Context)
    {item : Item σ} (is_known : known item.reference) :
    Run.Alike (TwinFor known config) Eq (item.build config context strategy)
      (item.build config context strategy) := by
  unfold Item.build
  have resolving := Props.resolve_alike config.functions.alike_eq context item.props
  refine (onWorld_twin resolving).bind_eq fun props => ?_
  split
  · exact (record_twin _ _).bind_eq fun _ => .pure rfl
  · refine (resolve_twin h.steady h.unique is_known item.field props).bind ?_
    intro handle handle' same
    rw [h.sees.render_eq same]
    exact (onWorld_twin (World.onHost_alike (.self _))).bind_eq fun node => .pure rfl

def Outcome.contained (field : String) : Outcome FormError α → Except FieldError α
  | .value a => .ok a
  | .error e => .error ⟨field, e⟩
  | .panic p => .error ⟨field, .panicked p.text⟩

section Boundary

variable {field : String} {catchPanics : Bool} {m : Run (Session σ) FormError α} {s t : Session σ}

theorem isolate_of_value {a : α} (ended : m s = (.value a, t)) :
    isolate field catchPanics m s = (.value (.ok a), t) := by
  cases catchPanics <;> simp [isolate, Run.bind_apply, Run.attempt, Run.catchPanic, ended]

theorem isolate_of_error {e : FormError} (ended : m s = (.error e, t)) :
    isolate field catchPanics m s = (.value (.error ⟨field, e⟩),
      { t with world := { t.world with events := t.world.events ++ [.fieldFailed ⟨field, e⟩] } }) := by
  cases catchPanics <;> simp [isolate, Run.bind_apply, Run.attempt, Run.catchPanic, ended] <;> rfl

theorem isolate_of_caught {p : Panic} (ended : m s = (.panic p, t)) :
    isolate field true m s = (.value (.error ⟨field, .panicked p.text⟩),
      { t with world := { t.world with
        events := t.world.events ++ [.fieldFailed ⟨field, .panicked p.text⟩] } }) := by
  simp [isolate, Run.bind_apply, Run.attempt, Run.catchPanic, ended]
  rfl

theorem isolate_of_escaped {p : Panic} (ended : m s = (.panic p, t)) :
    isolate field false m s = (.panic p, t) := by
  simp [isolate, Run.bind_apply, Run.attempt, ended]

end Boundary

theorem isolate_apply (field : String) (m : Run (Session σ) FormError α) (s : Session σ) :
    isolate field true m s =
      (match (m s).1.contained field with
      | .ok a => pure (Except.ok a)
      | .error e => do
        Session.record (.fieldFailed e)
        pure (Except.error e)) (m s).2 := by
  simp only [isolate, Run.bind_apply, Run.attempt, Run.catchPanic, if_true]
  rcases m s with ⟨_ | _ | _, t⟩ <;> rfl

theorem isolate_eq (field : String) (m : Run (Session σ) FormError α) (s : Session σ) :
    (isolate field true m s).1 = .value ((m s).1.contained field) ∧
      (isolate field true m s).2.world.host = (m s).2.world.host ∧
        (isolate field true m s).2.resolver = (m s).2.resolver := by
  rw [isolate_apply]
  cases (m s).1.contained field with
  | ok a => exact ⟨rfl, rfl, rfl⟩
  | error e => exact ⟨rfl, rfl, rfl⟩

theorem isolate_congr {field : String} {m n : Run (Session σ) FormError α} {s : Session σ}
    (outcome : (m s).1.contained field = (n s).1.contained field) (state : (m s).2 = (n s).2) :
    isolate field true m s = isolate field true n s := by
  rw [isolate_apply, isolate_apply, outcome, state]

theorem isolate_alike (field : String) (catchPanics : Bool) {m n : Run (Session σ) FormError α}
    (h : Run.Alike (TwinFor known config) Eq m n) :
    Run.Alike (TwinFor known config) Eq (isolate field catchPanics m)
      (isolate field catchPanics n) := by
  have guarded : Run.Alike (TwinFor known config) Eq
      (if catchPanics then m.catchPanic fun p => .panicked p.text else m)
      (if catchPanics then n.catchPanic fun p => .panicked p.text else n) := by
    split
    · exact h.catchPanic _
    · exact h
  refine guarded.attempt.bind_eq fun result => ?_
  cases result with
  | ok a => exact .pure rfl
  | error source => exact (record_twin _ _).bind_eq fun _ => .pure rfl

namespace Form

theorem renderItems_cons (config : Config σ) (context : Context) (strategy : Strategy σ)
    (seen : List String) (item : Item σ) (rest : Schema σ) :
    renderItems config context strategy seen (item :: rest) = (do
      (if seen.contains item.field then Session.record (.duplicateField item.field) else pure ())
      let result ← isolate item.field config.options.catchPanics
        (item.build config context strategy)
      let more ← renderItems config context strategy (item.field :: seen) rest
      pure (outputs config item.field result ++ more)) := by
  rw [renderItems]
  split <;> rfl

theorem noteRepeated_eq (field : String) (repeated : Prop) [Decidable repeated] (s : Session σ) :
    ∃ s', (if repeated then Session.record (.duplicateField field) else pure () :
        Run (Session σ) ε Unit) s = (.value (), s') ∧
      s'.world.host = s.world.host ∧ s'.resolver = s.resolver := by
  split
  · exact ⟨_, rfl, rfl, rfl⟩
  · exact ⟨s, rfl, rfl, rfl⟩

theorem noteRepeated_alike (field : String) (repeated repeated' : Prop) [Decidable repeated]
    [Decidable repeated'] :
    Run.Alike (TwinFor known config) Eq
      (if repeated then record (.duplicateField field) else pure () :
        Run (Session σ) ε Unit)
      (if repeated' then record (.duplicateField field) else pure ()) := by
  split <;> split
  · exact record_twin _ _
  · exact fun s t twin => ⟨.value rfl, twin⟩
  · exact fun s t twin => ⟨.value rfl, twin⟩
  · exact .pure rfl

theorem renderItems_alike (h : Unnoticed known config strategy) (context : Context)
    {items : Schema σ} (are_known : ∀ item ∈ items, known item.reference)
    (seen seen' : List String) :
    Run.Alike (TwinFor known config) Eq (renderItems config context strategy seen items)
      (renderItems config context strategy seen' items) := by
  induction items generalizing seen seen' with
  | nil => exact .pure rfl
  | cons item rest ih =>
      rw [renderItems_cons, renderItems_cons]
      refine (noteRepeated_alike item.field _ _).bind_eq fun _ => ?_
      have built := Item.build_alike h context (are_known item List.mem_cons_self)
      refine (isolate_alike item.field _ built).bind_eq fun result => ?_
      have rest_known : ∀ item ∈ rest, known item.reference :=
        fun item mem => are_known item (List.mem_cons_of_mem _ mem)
      exact (ih rest_known _ _).bind_eq fun more => .pure rfl

/-- Passes over two faithful memos have the same outcome and leave faithful memos. -/
theorem render_alike (h : Unnoticed known config strategy) {items : Schema σ}
    (are_known : ∀ item ∈ items, known item.reference) (data : Props) :
    Run.Alike (TwinFor known config) Eq (render config items data strategy)
      (render config items data strategy) := by
  unfold render
  have same_live : Run.Alike (TwinFor known config) Eq
      (.read fun s => strategy.liveValues s.world.host : Run (Session σ) Empty Props)
      (.read fun s => strategy.liveValues s.world.host) :=
    .read fun s t twin => congrArg strategy.liveValues twin.1
  refine same_live.bind_eq fun live => ?_
  refine (renderItems_alike h _ are_known [] []).bind_eq fun outputs => ?_
  refine (Run.Alike.modify ?_).bind_eq fun _ => (record_twin _ _).bind_eq fun _ => .pure rfl
  exact fun s t twin =>
    ⟨twin.1, twin.2.1.retainFields _, twin.2.2.retainFields _⟩

end Form

end SideBySide

namespace Sample

def input : Component MemoryState where
  name := "Input"
  render props binding :=
    pure (.element "input" (props.insert "value" binding.value) binding.onChange [])

def exploding : Component MemoryState := ⟨"Exploding", fun _ _ => .panic (.message "corrupted")⟩

def boxed (inner : Component MemoryState) : Component MemoryState where
  name := "boxed(" ++ inner.name ++ ")"
  render props binding := do
    let node ← inner.render props binding
    pure (.element "box" .empty none [node])

def box : Middleware MemoryState :=
  .always "box" fun inner => pure (.ofComponent (boxed inner.toComponent))

/-- Two components, one of which panics, and a wrapper around both. -/
def config (catchPanics : Bool) : Config MemoryState where
  registry := ⟨0, .ofList [("Input", ⟨input, .shared 0⟩), ("Exploding", ⟨exploding, .shared 1⟩)]⟩
  middlewares := ⟨1, [box]⟩
  functions := .initial
  options := { Options.initial with catchPanics := catchPanics }

def strategy : Strategy MemoryState := .controller (MemoryState.formState id fun memory _ => memory)

def name : Item MemoryState := .ofReference "name" (.named "Input")

def broken : Item MemoryState := .ofReference "broken" (.named "Exploding")

theorem steady_of_mem {catchPanics : Bool} {m : Middleware MemoryState} {hoc : Hoc MemoryState}
    (mem : m ∈ (config catchPanics).middlewares.content) (some_hoc : m.hoc = some hoc) :
    Hoc.Steady hoc := by
  obtain rfl := List.mem_singleton.1 mem
  cases some_hoc
  exact fun inner => ⟨_, fun _ => rfl⟩

end Sample

end Formwork
