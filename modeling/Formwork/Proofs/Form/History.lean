import Formwork.Proofs.Form.Pass

/-!
# Histories of a renderer

The memo of a renderer is faithful after any sequence of passes, configurations and host code. Hence
every pass has the outcome it has with a new renderer.
-/

namespace Formwork

variable {σ : Type}

theorem Reference.eq_named_of_id {r : Reference σ} {key : String} (h : r.id = .named key) :
    r = .named key := by
  cases r with
  | named key' => exact congrArg Reference.named (Reference.Id.named.inj h)
  | element node => cases h
  | direct handle => cases h

theorem Schema.named_of_ofEntries {index : Nat} {entries : List Value} {items : Schema σ}
    (h : Schema.ofEntries index entries = .ok items) {item : Item σ} (mem : item ∈ items) :
    ∃ key, item.reference = .named key := by
  induction entries generalizing index items with
  | nil =>
      cases h
      cases mem
  | cons entry rest ih =>
      unfold Schema.ofEntries at h
      split at h
      · next spec decoded =>
        cases more : (Schema.ofEntries (index + 1) rest : Except SchemaError (Schema σ)) with
        | error e =>
            rw [more] at h
            cases h
        | ok later =>
            rw [more] at h
            cases h
            rcases List.mem_cons.1 mem with rfl | later_mem
            · exact ⟨spec.component, rfl⟩
            · exact ih more later_mem
      · contradiction

theorem Schema.named_of_ofValue {v : Value} {items : Schema σ} (h : Schema.ofValue v = .ok items)
    {item : Item σ} (mem : item ∈ items) : ∃ key, item.reference = .named key := by
  cases v with
  | array entries => exact named_of_ofEntries h mem
  | null | bool | number | string | object => cases h

namespace Renderer

/-- An operation on a renderer, or host code between two of them. -/
inductive Action (σ : Type) where
  | render (items : Schema σ) (data : Props) (strategy : Strategy σ)
  | renderValue (schema : Value) (data : Props) (strategy : Strategy σ)
  | setConfig (config : Config σ)
  /-- Host code between passes: a write to the form state, or an emission on an earlier node. -/
  | host (act : Run σ Empty Unit)

namespace Action

def perform : Action σ → Run (World σ × Renderer σ) SchemaError (List (FieldOutput σ))
  | .render items data strategy => (Renderer.render items data strategy).lift
  | .renderValue schema data strategy => Renderer.renderValue schema data strategy
  | .setConfig config => do
    .modify fun (w, r) => (w, r.setConfig config)
    pure []
  | .host act => do
    (World.onHost act).lift.onPart Prod.fst fun w s => (w, s.2)
    pure []

def configs : Action σ → List (Config σ)
  | .setConfig config => [config]
  | _ => []

def strategies : Action σ → List (Strategy σ)
  | .render _ _ strategy => [strategy]
  | .renderValue _ _ strategy => [strategy]
  | _ => []

/-- The references in an action. Items decoded from a value have keys only. -/
def references : Action σ → List (Reference σ)
  | .render items _ _ => items.map (·.reference)
  | _ => []

end Action

/-- The state after a sequence of actions, however each of them ends. -/
def after (actions : List (Action σ)) (s : World σ × Renderer σ) : World σ × Renderer σ :=
  actions.foldl (fun s action => (action.perform s).2) s

/-- The same world with a new renderer of the current configuration. -/
def renewed (s : World σ × Renderer σ) : World σ × Renderer σ := (s.1, ofConfig s.2.config)

/-- The host conditions for one action, relative to the known references. -/
structure Action.Fits (known : Reference σ → Prop) (action : Action σ) : Prop where
  steady : ∀ config ∈ action.configs, (Pipeline.ofExternal config.middlewares).Steady
  sees : ∀ strategy ∈ action.strategies, strategy.SeesComponents
  are_known : ∀ r ∈ action.references, known r

/-- The invariant: wrapping depends on the handle alone, and the memo is faithful. -/
structure Sound (known : Reference σ → Prop) (s : World σ × Renderer σ) : Prop where
  steady : (Pipeline.ofExternal s.2.config.middlewares).Steady
  faithful : s.2.resolver.Faithful known s.2.config.registry.content
    (.ofExternal s.2.config.middlewares)

/-- Known references of equal identity are equal, and every key is known. -/
structure Shares (known : Reference σ → Prop) : Prop where
  unique : ∀ r r', known r → known r' → r.id = r'.id → r = r'
  named : ∀ key, known (.named key)

variable {known : Reference σ → Prop} {s : World σ × Renderer σ}

theorem sound_ofConfig {config : Config σ} (world : World σ)
    (steady : (Pipeline.ofExternal config.middlewares).Steady) :
    Sound known (world, ofConfig config) :=
  ⟨steady, Resolver.faithful_empty⟩

theorem run_renewed {ε α : Type} (pass : Config σ → Run (Session σ) ε α) (sound : Sound known s)
    (alike : Run.Alike (Session.TwinFor known s.2.config) Eq (pass s.2.config)
      (pass s.2.config)) :
    (run pass s).1 = (run pass (renewed s)).1 ∧
      (run pass s).2.1.host = (run pass (renewed s)).2.1.host ∧ Sound known (run pass s).2 := by
  obtain ⟨outcome, hosts, faithful, -⟩ := alike ⟨s.1, s.2.resolver⟩ ⟨s.1, .empty⟩
    ⟨rfl, sound.faithful, Resolver.faithful_empty⟩
  exact ⟨outcome.eq, hosts, sound.steady, faithful⟩

/-- The step: an action gives the same as with a renewed renderer, and preserves soundness. -/
theorem perform_step (shares : Shares known) {action : Action σ} (fits : action.Fits known)
    (sound : Sound known s) :
    (action.perform s).1 = (action.perform (renewed s)).1 ∧
      (action.perform s).2.1.host = (action.perform (renewed s)).2.1.host ∧
        Sound known (action.perform s).2 := by
  cases action with
  | render items data strategy =>
      have unnoticed : Unnoticed known s.2.config strategy :=
        ⟨sound.steady, shares.unique, fits.sees strategy List.mem_cons_self⟩
      obtain ⟨outcome, hosts, still_sound⟩ := run_renewed
        (fun config => Form.render config items data strategy) sound
        (Form.render_alike unnoticed
          (fun item mem => fits.are_known _ (List.mem_map_of_mem mem)) data)
      simp only [Action.perform, Run.lift_snd]
      exact ⟨Run.lift_fst_congr outcome, hosts, still_sound⟩
  | renderValue schema data strategy =>
      have unnoticed : Unnoticed known s.2.config strategy :=
        ⟨sound.steady, shares.unique, fits.sees strategy List.mem_cons_self⟩
      apply run_renewed (fun config => Form.renderValue config schema data strategy) sound
      unfold Form.renderValue
      split
      · next items decoded =>
        refine (Form.render_alike unnoticed (fun item mem => ?_) data).lift
        obtain ⟨key, is_named⟩ := Schema.named_of_ofValue decoded mem
        rw [is_named]
        exact shares.named key
      · exact .fail _
  | setConfig config =>
      exact ⟨rfl, rfl, fits.steady config List.mem_cons_self, Resolver.faithful_clear _⟩
  | host act =>
      simp only [Action.perform, Run.bind_apply, Run.onPart, renewed]
      rcases ((World.onHost act).lift s.1 : Outcome SchemaError Unit × World σ) with ⟨_ | _ | _, w⟩
      all_goals exact ⟨rfl, rfl, sound.steady, sound.faithful⟩

/-- The run: soundness holds after any sequence of actions. -/
theorem after_sound (shares : Shares known) {actions : List (Action σ)}
    (fit : ∀ action ∈ actions, action.Fits known) (sound : Sound known s) :
    Sound known (after actions s) := by
  induction actions generalizing s with
  | nil => exact sound
  | cons action rest ih =>
      exact ih (fun later mem => fit later (List.mem_cons_of_mem _ mem))
        (perform_step shares (fit action List.mem_cons_self) sound).2.2

/-- The host conditions for a whole history. Wrapping depends on the handle alone (`Hoc.Steady`): a
wrapper neither reads nor writes the state while it wraps, though the wrapped component may do both.
Callbacks do not distinguish handles of one component, and references of equal identity are equal.
Neither of the first two conditions can be dropped, as a sample below shows. -/
structure HostKeeps (config : Config σ) (actions : List (Action σ)) : Prop where
  steady : ∀ c ∈ config :: actions.flatMap Action.configs, ∀ m ∈ c.middlewares.content,
    ∀ hoc, m.hoc = some hoc → Hoc.Steady hoc
  sees : ∀ strategy ∈ actions.flatMap Action.strategies, strategy.SeesComponents
  unique : ∀ r ∈ actions.flatMap Action.references, ∀ r' ∈ actions.flatMap Action.references,
    r.id = r'.id → r = r'

namespace HostKeeps

def Known (actions : List (Action σ)) (r : Reference σ) : Prop :=
  r ∈ actions.flatMap Action.references ∨ ∃ key, r = .named key

variable {config : Config σ} {actions : List (Action σ)}

theorem shares (keeps : HostKeeps config actions) : Shares (Known actions) where
  unique r r' h h' same := by
    rcases h' with brought' | ⟨key, rfl⟩
    · rcases h with brought | ⟨key, rfl⟩
      · exact keeps.unique r brought r' brought' same
      · exact (Reference.eq_named_of_id same.symm).symm
    · exact Reference.eq_named_of_id same
  named key := .inr ⟨key, rfl⟩

theorem fits (keeps : HostKeeps config actions) {action : Action σ} (mem : action ∈ actions) :
    action.Fits (Known actions) where
  steady c c_mem := Pipeline.steady_ofExternal
    (keeps.steady c (List.mem_cons_of_mem _ (List.mem_flatMap_of_mem mem c_mem)))
  sees strategy strategy_mem := keeps.sees strategy (List.mem_flatMap_of_mem mem strategy_mem)
  are_known _ r_mem := .inl (List.mem_flatMap_of_mem mem r_mem)

theorem sound_after (keeps : HostKeeps config actions) (world : World σ)
    {before : List (Action σ)} (among : ∀ action ∈ before, action ∈ actions) :
    Sound (Known actions) (after before (world, ofConfig config)) :=
  after_sound keeps.shares (fun action mem => keeps.fits (among action mem))
    (sound_ofConfig world (Pipeline.steady_ofExternal (keeps.steady config List.mem_cons_self)))

end HostKeeps

/-- Memoization is invisible. After any history, an action has the same outcome and leaves the same
host state as with a new renderer of the current configuration over the current host state. This
includes passes that end in a panic. -/
theorem perform_after_eq_renewed (config : Config σ) (world : World σ)
    (before : List (Action σ)) (action : Action σ)
    (keeps : HostKeeps config (before ++ [action])) :
    let s := after before (world, ofConfig config)
    (action.perform s).1 = (action.perform (renewed s)).1 ∧
      (action.perform s).2.1.host = (action.perform (renewed s)).2.1.host := by
  intro s
  have sound := keeps.sound_after world fun action mem => List.mem_append_left [_] mem
  have fits := keeps.fits (List.mem_append_right before List.mem_cons_self)
  obtain ⟨outcome, hosts, -⟩ := perform_step keeps.shares fits sound
  exact ⟨outcome, hosts⟩

end Renderer

namespace Sample

open Renderer

def type (value : Value) : Action MemoryState := .host (.modify (·.setValue "name" value))

/-- A pass, and then a typed value. -/
def history : List (Action MemoryState) :=
  [.render [name, broken] .empty strategy, type (.string "Ada")]

theorem keeps (catchPanics : Bool) (data : Props) :
    HostKeeps (config catchPanics) (history ++ [.render [name, broken] data strategy]) where
  steady c c_mem m mem hoc some_hoc := by
    obtain rfl := List.mem_singleton.1 c_mem
    exact steady_of_mem mem some_hoc
  sees strategy' mem := by
    have all : strategy' ∈ [strategy, strategy] := mem
    simp only [List.mem_cons, List.not_mem_nil, or_false, or_self] at all
    rw [all]
    trivial
  unique r mem r' mem' same := by
    have among : ∀ r ∈ [name.reference, broken.reference, name.reference, broken.reference],
        ∃ key, r = .named key := by
      simp [name, broken, Item.ofReference]
    obtain ⟨key, rfl⟩ := among r' mem'
    exact Reference.eq_named_of_id same

/-- A pass that panics leaves built handles in the memo; after a typed value it panics as with a new
renderer. -/
theorem render_after_escaped_panic :
    let s := after history (⟨.ofValues .empty, []⟩, ofConfig (config false))
    let again := Action.render [name, broken] .empty strategy
    s.2.resolver.cachedFields = 2 ∧ (again.perform s).1 = .panic (.message "corrupted") ∧
      (again.perform s).1 = (again.perform (renewed s)).1 := by
  intro s again
  have same := perform_after_eq_renewed (config false) ⟨.ofValues .empty, []⟩
    history again (keeps false .empty)
  refine ⟨?_, ?_, same.1⟩
  · rfl
  · rfl

/-! ## Hosts for which the memo is visible -/

def wrappedBy (catchPanics : Bool) (hoc : Hoc MemoryState) : Config MemoryState :=
  { config catchPanics with middlewares := ⟨1, [.always "box" hoc]⟩ }

/-- Reads the form state while wrapping, and renders the value read. -/
def stamp : Hoc MemoryState := fun _ => do
  let value ← .read (·.value "name")
  pure (.ofComponent ⟨"Stamp", fun _ _ => pure (.text value.display)⟩)

/-- Writes to the form state while wrapping. -/
def prefill : Hoc MemoryState := fun _ => do
  .modify (·.setValue "name" (.string "prefilled"))
  pure (.ofComponent ⟨"Prefilled", fun _ binding => pure (.text binding.value.display)⟩)

/-- Renders the identity of its handle. -/
def identify : Strategy MemoryState :=
  .callback fun item =>
    pure (.text (if item.fieldRender.handle.identity = .built 1 then "kept" else "new"))

/-- The state after a pass over the items and another typed name. -/
def retyped (config : Config MemoryState) (items : Schema MemoryState)
    (strategy : Strategy MemoryState) : World MemoryState × Renderer MemoryState :=
  after [.render items .empty strategy, type (.string "Grace")]
    (⟨.ofValues (.ofList [("name", .string "Ada")]), []⟩, ofConfig config)

def shown (text : String) : FieldOutput MemoryState := ⟨"name", .text text, none⟩

theorem shown_ne {text text' : String} (ne : text ≠ text') : shown text ≠ shown text' := by
  intro same
  cases same
  exact ne rfl

/-- The conditions on wrappers and callbacks are necessary. A wrapper that only reads the form state
keeps the value read, one that writes does not write again, and a callback distinguishes a handle of
the memo from a new one of the same component. -/
theorem memo_noticed :
    (let s := retyped (wrappedBy true stamp) [name] strategy
      let again := Action.render [name] .empty strategy
      (∀ inner memory, (stamp inner memory).2 = memory) ∧ strategy.SeesComponents ∧
        (again.perform s).1 = .value [shown "Ada"] ∧
        (again.perform (renewed s)).1 = .value [shown "Grace"] ∧
        (again.perform s).1 ≠ (again.perform (renewed s)).1) ∧
    (let s := retyped (wrappedBy true prefill) [name] strategy
      let again := Action.render [name] .empty strategy
      (again.perform s).1 ≠ (again.perform (renewed s)).1) ∧
    (let s := retyped (config true) [broken, name] identify
      let again := Action.render [name] .empty identify
      (∀ m ∈ s.2.config.middlewares.content, ∀ hoc, m.hoc = some hoc → Hoc.Steady hoc) ∧
        (again.perform s).1 ≠ (again.perform (renewed s)).1) := by
  have apart {text text' : String} (ne : text ≠ text') :
      (.value [shown text] : Outcome SchemaError (List (FieldOutput MemoryState))) ≠
        .value [shown text'] := by
    intro same
    exact shown_ne ne (List.cons.inj (Outcome.value.inj same)).1
  refine ⟨⟨fun _ _ => rfl, trivial, rfl, rfl, ?_⟩, ?_, fun m mem hoc => steady_of_mem mem, ?_⟩
  · exact apart (show "Ada" ≠ "Grace" by decide)
  · exact apart (show "Grace" ≠ "prefilled" by decide)
  · exact apart (show "kept" ≠ "new" by decide)

end Sample

end Formwork
