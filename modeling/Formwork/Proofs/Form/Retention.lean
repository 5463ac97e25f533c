import Formwork.Proofs.Form.Turns

/-!
# Retention in the memo

A field enters the memo when its request is answered, and leaves it after a pass over a schema
without the field. A field of every schema is built once while its cache key stays the same.
-/

namespace Formwork

variable {σ : Type}

namespace Resolver

/-- One if the memo has a handle for the field as the configuration builds it, otherwise zero. -/
def held (memo : Resolver σ) (config : Config σ) (field : String) (key : MemoKey) : Nat :=
  (memo.lookup? field key config.registry.id config.middlewares.id).isSome.toNat

variable {memo : Resolver σ} {config : Config σ} {field : String} {key : MemoKey}

@[simp] theorem builds_counted : memo.counted.builds = memo.builds := rfl

@[simp] theorem held_counted :
    memo.counted.held config field key = memo.held config field key := rfl

@[simp] theorem builds_grown (entry : MemoEntry σ) :
    (memo.grown field entry).builds = memo.builds + 1 := rfl

theorem held_le_one : memo.held config field key ≤ 1 := Bool.toNat_le _

theorem held_of_missing (missing : memo.lookup? field key config.registry.id
    config.middlewares.id = none) : memo.held config field key = 0 := by
  rw [held, missing]
  rfl

theorem held_grown (handle : Handle σ) :
    (memo.grown field ⟨key, config.registry.id, config.middlewares.id, handle⟩).held config field
      key = 1 := by
  simp [held, lookup?, grown, Record.get?_insert]

theorem held_grown_of_ne {other : String} (entry : MemoEntry σ) (ne : other ≠ field) :
    (memo.grown other entry).held config field key = memo.held config field key := by
  simp [held, lookup?, grown, Record.get?_insert, ne]

theorem held_retainFields {fields : List String} (kept : field ∈ fields) :
    (memo.retainFields fields).held config field key = memo.held config field key := by
  simp [held, lookup?, retainFields, Record.get?_retain, kept]

end Resolver

namespace Form

variable {field : String}

namespace Turn

variable {t : Turn σ}

theorem mem_keys_built :
    field ∈ t.built.2.resolver.cache.keys ↔
      field ∈ t.session.resolver.cache.keys ∨ t.item.field = field ∧ t.Resolves := by
  have leaves := t.leaves
  generalize t.built.2.resolver = memo at leaves
  cases leaves with
  | idle unresolved => exact (or_iff_left fun here => unresolved here.2).symm
  | refused unresolved => exact (or_iff_left fun here => unresolved here.2).symm
  | reused resolves cached =>
      refine (or_iff_left_of_imp ?_).symm
      rintro ⟨rfl, -⟩
      exact Record.mem_keys_iff.2 ⟨_, cached⟩
  | built resolves selects stale =>
      rw [Resolver.grown, Record.mem_keys_insert, eq_comm, and_iff_left resolves, or_comm]
      rfl

theorem builds_built :
    t.built.2.resolver.builds = t.session.resolver.builds + if t.builds then 1 else 0 := by
  have leaves := t.leaves
  unfold builds
  generalize t.built.2.resolver = memo at leaves
  cases leaves <;> simp

/-- The item has the reference of the key and, whenever it is visible, the filter outcomes of the
key. -/
def AsksFor (t : Turn σ) (key : MemoKey) : Prop :=
  t.item.reference.id = key.reference ∧ ∀ flags, t.Selects flags → flags = key.active

/-- A build is bounded by the increase of `held`. -/
theorem build_le_held {key : MemoKey} (asks : t.item.field = field → t.AsksFor key) :
    (if t.item.field = field ∧ t.builds then 1 else 0) +
      t.session.resolver.held t.config field key ≤ t.built.2.resolver.held t.config field key := by
  have leaves := t.leaves
  unfold builds
  generalize t.built.2.resolver = memo at leaves
  cases leaves with
  | idle | refused | reused => simp
  | @built flags handle resolves selects stale =>
      -- What is built for the field itself has not been held, for then it would have been reused.
      by_cases here : t.item.field = field
      · obtain ⟨reference, active⟩ := asks here
        subst here
        have same_key : key = ⟨t.item.reference.id, flags⟩ := by
          rw [reference, active flags selects]
        subst same_key
        rw [Resolver.held_of_missing stale, Resolver.held_grown]
        split <;> simp
      · rw [Resolver.held_grown_of_ne _ here]
        simp [here]

end Turn

variable (config : Config σ) (context : Context) (strategy : Strategy σ)

theorem mem_keys_renderItems (seen : List String) (items : Schema σ) (s : Session σ) :
    field ∈ (renderItems config context strategy seen items s).2.resolver.cache.keys ↔
      field ∈ s.resolver.cache.keys ∨
        ∃ t ∈ turns config context strategy seen items s, t.item.field = field ∧ t.Resolves := by
  refine turns_induction (R := fun ts memo memo' => field ∈ memo'.cache.keys ↔
    field ∈ memo.cache.keys ∨ ∃ t ∈ ts, t.item.field = field ∧ t.Resolves) ?_ ?_ seen s
  · simp
  · intro t later memo _ _ ih
    rw [ih, Turn.mem_keys_built, List.exists_mem_cons_iff, or_assoc]

theorem builds_renderItems (seen : List String) (items : Schema σ) (s : Session σ) :
    (renderItems config context strategy seen items s).2.resolver.builds = s.resolver.builds +
      (turns config context strategy seen items s).countP (·.builds) := by
  refine turns_induction (R := fun ts memo memo' =>
    memo'.builds = memo.builds + ts.countP (·.builds)) ?_ ?_ seen s
  · simp
  · intro t later memo _ _ ih
    rw [ih, Turn.builds_built, List.countP_cons]
    omega

theorem builds_le_held {key : MemoKey} {seen : List String} {items : Schema σ} {s : Session σ}
    (ask : ∀ t ∈ turns config context strategy seen items s, t.item.field = field →
      t.AsksFor key) :
    (turns config context strategy seen items s).countP
        (fun t => t.item.field = field ∧ t.builds) + s.resolver.held config field key ≤
      (renderItems config context strategy seen items s).2.resolver.held config field key := by
  revert ask
  refine turns_induction (R := fun ts memo memo' =>
    (∀ t ∈ ts, t.item.field = field → t.AsksFor key) →
      ts.countP (fun t => t.item.field = field ∧ t.builds) + memo.held config field key ≤
        memo'.held config field key) ?_ ?_ seen s
  · simp
  · intro t later memo same _ ih ask
    obtain ⟨first, others⟩ := List.forall_mem_cons.1 ask
    have paid := Turn.build_le_held first
    have later_paid := ih others
    rw [same] at paid
    rw [List.countP_cons]
    simp only [decide_eq_true_eq]
    omega

theorem render_resolver (items : Schema σ) (data : Props) (s : Session σ) :
    let context := Context.merge (strategy.liveValues s.world.host) data config.options.precedence
    let left := (renderItems config context strategy [] items s).2.resolver
    ((∃ outs, (render config items data strategy s).1 = .value outs) ∧
        (render config items data strategy s).2.resolver =
          left.retainFields (items.map (·.field))) ∨
      (∃ p, (render config items data strategy s).1 = .panic p) ∧
        (render config items data strategy s).2.resolver = left := by
  intro context left
  simp only [left]
  rw [render, Run.read_bind_apply]
  rcases ended : renderItems config context strategy [] items s with ⟨outs | e | p, t⟩
  · rw [Run.bind_of_value ended]
    exact .inl ⟨⟨outs, rfl⟩, rfl⟩
  · exact e.elim
  · rw [Run.bind_of_panic ended]
    exact .inr ⟨⟨p, rfl⟩, rfl⟩

end Form

namespace Renderer

structure Pass (σ : Type) where
  items : Schema σ
  data : Props
  strategy : Strategy σ

def Pass.context (pass : Pass σ) (s : World σ × Renderer σ) : Context :=
  Context.merge (pass.strategy.liveValues s.1.host) pass.data s.2.config.options.precedence

namespace Action

/-- The pass of an action; none for a value that does not decode. -/
def pass? : Action σ → Option (Pass σ)
  | .render items data strategy => some ⟨items, data, strategy⟩
  | .renderValue schema data strategy =>
    (Schema.ofValue schema).toOption.map fun items => ⟨items, data, strategy⟩
  | .setConfig _ => none
  | .host _ => none

def turns (action : Action σ) (s : World σ × Renderer σ) : List (Form.Turn σ) :=
  match action.pass? with
  | some pass =>
    Form.turns s.2.config (pass.context s) pass.strategy [] pass.items ⟨s.1, s.2.resolver⟩
  | none => []

variable {action : Action σ} {pass : Pass σ} {s : World σ × Renderer σ}

theorem perform_of_pass (is_pass : action.pass? = some pass) :
    action.perform s = (Renderer.render pass.items pass.data pass.strategy).lift s := by
  cases action with
  | render items data strategy =>
      cases is_pass
      rfl
  | renderValue schema data strategy =>
      cases decoded : (Schema.ofValue schema : Except SchemaError (Schema σ)) with
      | ok items =>
          rw [pass?, decoded] at is_pass
          cases is_pass
          rw [perform, Renderer.renderValue]
          simp only [Form.renderValue, decoded]
          rw [run_lift]
          rfl
      | error e =>
          rw [pass?, decoded] at is_pass
          cases is_pass
  | setConfig => cases is_pass
  | host => cases is_pass

theorem perform_of_no_pass (no_pass : action.pass? = none) :
    (∃ config, action = .setConfig config) ∨ (action.perform s).2.2 = s.2 := by
  cases action with
  | render => cases no_pass
  | renderValue schema data strategy =>
      refine .inr ?_
      cases decoded : (Schema.ofValue schema : Except SchemaError (Schema σ)) with
      | ok items =>
          rw [pass?, decoded] at no_pass
          cases no_pass
      | error e =>
          simp only [perform, Renderer.renderValue, run, Form.renderValue, decoded]
          rfl
  | setConfig config => exact .inl ⟨config, rfl⟩
  | host act =>
      refine .inr ?_
      simp only [perform, Run.bind_apply, Run.onPart]
      rcases ((World.onHost act).lift s.1 : Outcome SchemaError Unit × World σ) with ⟨_ | _ | _, w⟩
      all_goals rfl

theorem perform_renderer (is_pass : action.pass? = some pass) :
    let left := (Form.renderItems s.2.config (pass.context s) pass.strategy [] pass.items
      ⟨s.1, s.2.resolver⟩).2.resolver
    (action.perform s).2.2 = ⟨s.2.config, left.retainFields (pass.items.map (·.field))⟩ ∨
      (∃ p, (action.perform s).1 = .panic p) ∧ (action.perform s).2.2 = ⟨s.2.config, left⟩ := by
  intro left
  have lifted := perform_of_pass (s := s) is_pass
  have renderer : (action.perform s).2.2 = ⟨s.2.config, (Form.render s.2.config pass.items
      pass.data pass.strategy ⟨s.1, s.2.resolver⟩).2.resolver⟩ := by
    rw [lifted, Run.lift_snd]
    rfl
  rw [renderer]
  rcases Form.render_resolver s.2.config pass.strategy pass.items pass.data ⟨s.1, s.2.resolver⟩ with
    ⟨-, kept⟩ | ⟨⟨p, panics⟩, kept⟩
  · exact .inl (congrArg (Renderer.mk s.2.config) kept)
  · have panics : (Renderer.render pass.items pass.data pass.strategy s).1 = .panic p := panics
    obtain ⟨t, ended⟩ := Outcome.exists_state_of_fst panics
    refine .inr ⟨⟨p, ?_⟩, congrArg (Renderer.mk s.2.config) kept⟩
    rw [lifted, Run.lift_eq_panic_iff.2 ended]

theorem config_perform (no_config : action.configs = []) (s : World σ × Renderer σ) :
    (action.perform s).2.2.config = s.2.config := by
  cases is_pass : action.pass? with
  | none =>
      rcases perform_of_no_pass (s := s) is_pass with ⟨config, rfl⟩ | same
      · cases no_config
      · rw [same]
  | some pass =>
      rcases perform_renderer (s := s) is_pass with kept | ⟨-, kept⟩ <;> rw [kept]

theorem mem_turns {t : Form.Turn σ} (mem : t ∈ action.turns s) :
    ∃ pass, action.pass? = some pass ∧ t.config = s.2.config ∧ t.item ∈ pass.items := by
  unfold turns at mem
  split at mem
  · next pass is_pass => exact ⟨pass, is_pass, Form.mem_turns mem⟩
  · cases mem

/-- After a pass that returns, the memo has those fields of the schema that were cached or whose
requests were answered. -/
theorem mem_keys_perform (is_pass : action.pass? = some pass) {outs : List (FieldOutput σ)}
    (ended : (action.perform s).1 = .value outs) (field : String) :
    field ∈ (action.perform s).2.2.resolver.cache.keys ↔
      field ∈ pass.items.map (·.field) ∧ (field ∈ s.2.resolver.cache.keys ∨
        ∃ t ∈ action.turns s, t.item.field = field ∧ t.Resolves) := by
  rcases perform_renderer (s := s) is_pass with kept | ⟨⟨p, panics⟩, -⟩
  · rw [kept, turns, is_pass, Resolver.retainFields, Record.mem_keys_retain,
      Form.mem_keys_renderItems, List.contains_iff_mem]
  · cases ended.symm.trans panics

theorem builds_perform (action : Action σ) (s : World σ × Renderer σ) :
    (action.perform s).2.2.resolver.builds =
      s.2.resolver.builds + (action.turns s).countP (·.builds) := by
  cases is_pass : action.pass? with
  | none =>
      rw [turns, is_pass]
      rcases perform_of_no_pass (s := s) is_pass with ⟨config, rfl⟩ | same
      · rfl
      · rw [same]
        rfl
  | some pass =>
      have built := Form.builds_renderItems s.2.config (pass.context s) pass.strategy [] pass.items
        ⟨s.1, s.2.resolver⟩
      rw [turns, is_pass]
      rcases perform_renderer (s := s) is_pass with kept | ⟨-, kept⟩
      · rw [kept]
        exact built
      · rw [kept]
        exact built

/-- The builds of an action for a field are bounded by the handle held afterwards. -/
theorem builds_le_held {field : String} {key : MemoKey} (no_config : action.configs = [])
    (in_pass : ∀ pass, action.pass? = some pass → field ∈ pass.items.map (·.field))
    (ask : ∀ t ∈ action.turns s, t.item.field = field → t.AsksFor key) :
    (action.turns s).countP (fun t => t.item.field = field ∧ t.builds) +
        s.2.resolver.held s.2.config field key ≤
      (action.perform s).2.2.resolver.held s.2.config field key := by
  cases is_pass : action.pass? with
  | none =>
      rcases perform_of_no_pass (s := s) is_pass with ⟨config, rfl⟩ | same
      · cases no_config
      · rw [turns, is_pass, same]
        simp
  | some pass =>
      simp only [turns, is_pass] at ask ⊢
      have paid := Form.builds_le_held _ _ _ ask
      rcases perform_renderer (s := s) is_pass with kept | ⟨-, kept⟩
      · rw [kept, Resolver.held_retainFields (in_pass pass is_pass)]
        exact paid
      · rw [kept]
        exact paid

end Action

def turns : List (Action σ) → World σ × Renderer σ → List (Form.Turn σ)
  | [], _ => []
  | action :: rest, s => action.turns s ++ turns rest (action.perform s).2

theorem mem_turns {actions : List (Action σ)} {s : World σ × Renderer σ} {t : Form.Turn σ}
    (no_config : ∀ action ∈ actions, action.configs = []) (mem : t ∈ turns actions s) :
    t.config = s.2.config ∧
      ∃ action ∈ actions, ∃ pass, action.pass? = some pass ∧ t.item ∈ pass.items := by
  induction actions generalizing s with
  | nil => cases mem
  | cons action rest ih =>
      obtain ⟨no_config, no_configs⟩ := List.forall_mem_cons.1 no_config
      rcases List.mem_append.1 mem with here | behind
      · obtain ⟨pass, is_pass, same, item⟩ := Action.mem_turns here
        exact ⟨same, action, List.mem_cons_self, pass, is_pass, item⟩
      · obtain ⟨same, later, later_mem, its_pass⟩ := ih no_configs behind
        exact ⟨same.trans (Action.config_perform no_config s), later,
          List.mem_cons_of_mem _ later_mem, its_pass⟩

theorem builds_after (actions : List (Action σ)) (s : World σ × Renderer σ) :
    (after actions s).2.resolver.builds =
      s.2.resolver.builds + (turns actions s).countP (·.builds) := by
  induction actions generalizing s with
  | nil => rfl
  | cons action rest ih =>
      rw [turns, List.countP_append, ← Nat.add_assoc, ← action.builds_perform]
      exact ih _

theorem builds_le_held {field : String} {key : MemoKey} {actions : List (Action σ)}
    {s : World σ × Renderer σ} (no_config : ∀ action ∈ actions, action.configs = [])
    (in_passes : ∀ action ∈ actions, ∀ pass, action.pass? = some pass →
      field ∈ pass.items.map (·.field))
    (ask : ∀ t ∈ turns actions s, t.item.field = field → t.AsksFor key) :
    (turns actions s).countP (fun t => t.item.field = field ∧ t.builds) +
        s.2.resolver.held s.2.config field key ≤
      (after actions s).2.resolver.held s.2.config field key := by
  induction actions generalizing s with
  | nil => simp [turns, after]
  | cons action rest ih =>
      obtain ⟨no_config, no_configs⟩ := List.forall_mem_cons.1 no_config
      obtain ⟨in_pass, in_passes⟩ := List.forall_mem_cons.1 in_passes
      obtain ⟨ask, later_ask⟩ := List.forall_mem_append.1 ask
      have paid := Action.builds_le_held no_config in_pass ask
      have later_paid := ih no_configs in_passes later_ask
      rw [Action.config_perform no_config] at later_paid
      rw [turns, List.countP_append]
      change _ ≤ (after rest (action.perform s).2).2.resolver.held _ _ _
      omega

/-- The memo is bounded by the last schema and survives hiding. After a pass that returns it has
those fields of the schema that were cached or whose requests were answered. All builds are those of
the turns; and a field in every schema is built at most once, as long as the configuration, its
reference and the outcomes of its filters when visible stay the same. -/
theorem memo_follows_schemas :
    (∀ (s : World σ × Renderer σ) (action : Action σ) pass, action.pass? = some pass →
      ∀ outs, (action.perform s).1 = .value outs → ∀ field,
        (field ∈ (action.perform s).2.2.resolver.cache.keys ↔
          field ∈ pass.items.map (·.field) ∧ (field ∈ s.2.resolver.cache.keys ∨
            ∃ t ∈ action.turns s, t.item.field = field ∧ t.Resolves))) ∧
    ∀ (s : World σ × Renderer σ) (actions : List (Action σ)),
      (after actions s).2.resolver.builds =
        s.2.resolver.builds + (turns actions s).countP (·.builds) ∧
      ∀ field reference flags,
        (∀ action ∈ actions, action.configs = []) →
        (∀ action ∈ actions, ∀ pass, action.pass? = some pass →
          field ∈ pass.items.map (·.field)) →
        (∀ t ∈ turns actions s, t.item.field = field → t.item.reference.id = reference ∧
          ∀ outcomes, t.Selects outcomes → outcomes = flags) →
        (turns actions s).countP (fun t => t.item.field = field ∧ t.builds) ≤ 1 := by
  refine ⟨fun s action pass is_pass outs ended => Action.mem_keys_perform is_pass ended,
    fun s actions => ⟨builds_after actions s, ?_⟩⟩
  intro field reference flags no_config in_passes same
  have paid : _ ≤ (after actions s).2.resolver.held s.2.config field ⟨reference, flags⟩ :=
    builds_le_held no_config in_passes same
  have one : (after actions s).2.resolver.held s.2.config field ⟨reference, flags⟩ ≤ 1 :=
    Resolver.held_le_one
  omega

end Renderer

namespace Sample

open Renderer

def hiddenName : Item MemoryState := name.withProp "hidden" (.bool true)

/-- A text box and a component that panics are rendered, and a value is typed. -/
def visit : List (Action MemoryState) :=
  [.render [name, broken] .empty strategy, type (.string "Ada")]

def hide : Action MemoryState := .render [hiddenName, broken] .empty strategy

theorem selects_name {t : Form.Turn MemoryState} (item : t.item = name ∨ t.item = hiddenName)
    (configured : t.config = config true) {outcomes : List Bool} (selects : t.Selects outcomes) :
    outcomes = [false, true] := by
  obtain ⟨props, w, ⟨resolved, visible⟩, selected⟩ := selects
  rw [Form.Turn.request, configured] at selected
  rcases item with is_name | is_hidden
  · rw [is_name] at resolved
    cases resolved
    cases selected
    rfl
  · rw [is_hidden] at resolved
    cases resolved
    cases visible

theorem item_of_visits {action : Action MemoryState} (mem : action ∈ visit ++ hide :: visit)
    {pass : Pass MemoryState} (is_pass : action.pass? = some pass) {item : Item MemoryState}
    (item_mem : item ∈ pass.items) (named : item.field = "name") :
    item = name ∨ item = hiddenName := by
  simp only [visit, hide, type, List.cons_append, List.nil_append, List.mem_cons,
    List.not_mem_nil, or_false] at mem
  rcases mem with rfl | rfl | rfl | rfl | rfl <;> cases is_pass
  all_goals
    simp only [List.mem_cons, List.not_mem_nil, or_false] at item_mem
    rcases item_mem with rfl | rfl
    · simp
    · contradiction

/-- A text box that is hidden in between and a component that always panics are built once, and the
hidden text box stays in the memo. -/
theorem memo_follows_schemas_visits :
    let s : World MemoryState × Renderer MemoryState :=
      (⟨.ofValues .empty, []⟩, ofConfig (config true))
    let actions := visit ++ hide :: visit
    "name" ∈ (hide.perform (after visit s)).2.2.resolver.cache.keys ∧
      (after actions s).2.resolver.builds = 2 ∧
        (turns actions s).countP (fun t => t.item.field = "name" ∧ t.builds) ≤ 1 := by
  intro s actions
  obtain ⟨keeps, built_once⟩ := memo_follows_schemas (σ := MemoryState)
  obtain ⟨outs, rendered⟩ := exists_render_value [hiddenName, broken] .empty strategy
    (after visit s) (by decide +kernel)
  have ended : (hide.perform (after visit s)).1 = .value outs := Run.lift_of_value rendered
  have no_config : ∀ action ∈ actions, action.configs = [] := by
    simp [actions, visit, hide, type, Action.configs]
  refine ⟨?_, by decide +kernel, (built_once s actions).2 "name" (.named "Input") [false, true]
    no_config ?_ ?_⟩
  · refine (keeps _ hide _ rfl outs ended "name").2 ⟨?_, .inl (by decide +kernel)⟩
    exact List.mem_cons_self
  · simp [actions, visit, hide, type, Action.pass?, name, hiddenName, broken, Item.withProp,
      Item.ofReference]
  · intro t mem here
    obtain ⟨configured, action, action_mem, pass, is_pass, item_mem⟩ := mem_turns no_config mem
    have item := item_of_visits action_mem is_pass item_mem here
    refine ⟨?_, fun outcomes selects => selects_name item configured selects⟩
    rcases item with is_name | is_hidden
    · rw [is_name]
      rfl
    · rw [is_hidden]
      rfl

end Sample

end Formwork
