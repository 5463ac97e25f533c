import Formwork.Proofs.Form.History
import Formwork.Proofs.Form.Quiet

/-!
# Field by field

With panics caught and a quiet host, each item of a pass has the outputs that it has alone, without
a memo and without other items. The outputs of a pass are their concatenation.
-/

namespace Formwork

variable {σ ε α β : Type}

namespace Outcome

def failure? : Outcome FormError α → Option FormError
  | .value _ => none
  | .error e => some e
  | .panic p => some (.panicked p.text)

theorem contained_of_failure {o : Outcome FormError α} {e : FormError} (h : o.failure? = some e)
    (field : String) : o.contained field = .error ⟨field, e⟩ := by
  cases o with
  | value a => cases h
  | error e' => cases h; rfl
  | panic p => cases h; rfl

theorem ofExcept_fails_iff {x : Except FormError α} {s : σ} {e : FormError} :
    (Run.ofExcept x s).1.failure? = some e ↔ x = .error e := by
  cases x with
  | ok a => exact ⟨nofun, nofun⟩
  | error e' => simp [Run.ofExcept, Run.fail, failure?]

theorem map_fails_iff {m : Run σ FormError α} {f : α → β} {s : σ} {e : FormError} :
    ((m >>= fun a => pure (f a)) s).1.failure? = some e ↔ (m s).1.failure? = some e := by
  rw [Run.bind_apply]
  rcases m s with ⟨_ | _ | _, t⟩
  · exact ⟨nofun, nofun⟩
  · exact Iff.rfl
  · exact Iff.rfl

theorem lift_fails_iff {m : Run σ Empty α} {s : σ} {e : FormError} :
    ((m.lift : Run σ FormError α) s).1.failure? = some e ↔
      ∃ p, (m s).1 = .panic p ∧ e = .panicked p.text := by
  unfold Run.lift Run.mapError
  rcases m s with ⟨_ | e' | p, t⟩
  · simp [failure?]
  · exact e'.elim
  · simp [failure?, eq_comm]

end Outcome

/-- The run is independent of the log. -/
abbrev World.Blind (m : Run (World σ) ε α) : Prop := Run.Alike (World.Over Eq) Eq m m

theorem World.fails_bind_iff {m : Run (World σ) FormError α}
    {f : α → Run (World σ) FormError β} (quiet : m.Preserves World.host)
    (blind : ∀ a, World.Blind (f a)) (host : σ) (e : FormError) :
    ((m >>= f) ⟨host, []⟩).1.failure? = some e ↔
      (m ⟨host, []⟩).1.failure? = some e ∨
        ∃ a, (m ⟨host, []⟩).1 = .value a ∧ (f a ⟨host, []⟩).1.failure? = some e := by
  have kept : (m ⟨host, []⟩).2.host = host := quiet ⟨host, []⟩
  rw [Run.bind_apply]
  generalize m ⟨host, []⟩ = x at kept
  rcases x with ⟨o, w⟩
  cases o with
  | value a =>
      have same : (f a w).1 = (f a ⟨host, []⟩).1 := (blind a w ⟨host, []⟩ kept).1.eq
      constructor
      · intro failed
        exact .inr ⟨a, rfl, by rw [← same]; exact failed⟩
      · rintro (none_failed | ⟨_, is_value, failed⟩)
        · cases none_failed
        · cases is_value
          rw [← same] at failed
          exact failed
  | error e' =>
      constructor
      · exact .inl
      · rintro (failed | ⟨_, is_value, _⟩)
        · exact failed
        · cases is_value
  | panic p =>
      constructor
      · exact .inl
      · rintro (failed | ⟨_, is_value, _⟩)
        · exact failed
        · cases is_value

def Props.resolveEntry (context : Context) (functions : Functions σ) (entry : String × Value) :
    Run (World σ) FormError Value :=
  (PropSource.classify entry.1 entry.2).resolve context functions

/-- The first prop that fails, with its error; those before it resolve. -/
def Props.FailsWith (props : Props) (context : Context) (functions : Functions σ) (host : σ)
    (e : FormError) : Prop :=
  ∃ before entry rest, props.entries = before ++ entry :: rest ∧
    (∀ earlier ∈ before, ∃ value,
      (resolveEntry context functions earlier ⟨host, []⟩).1 = .value value) ∧
      (resolveEntry context functions entry ⟨host, []⟩).1.failure? = some e

theorem Props.resolveEntries_cons_fails_iff {functions : Functions σ}
    (quiet : ∀ name f, functions.get? name = some f → ∀ args, (f args).Quiet) {context : Context}
    {host : σ} {e : FormError} (entry : String × Value) (rest : Entries Value) :
    (resolveEntries context functions (entry :: rest) ⟨host, []⟩).1.failure? = some e ↔
      (resolveEntry context functions entry ⟨host, []⟩).1.failure? = some e ∨
        ∃ value, (resolveEntry context functions entry ⟨host, []⟩).1 = .value value ∧
          (resolveEntries context functions rest ⟨host, []⟩).1.failure? = some e := by
  have entry_quiet : (resolveEntry context functions entry).Preserves World.host :=
    PropSource.preserves_resolve quiet context _
  have later_blind (value : Value) : World.Blind (do
      let more ← resolveEntries context functions rest
      pure ((entry.1, value) :: more)) := by
    exact (resolveEntries_alike functions.alike_eq context rest).bind_eq fun more => .pure rfl
  have later_fails (value : Value) : ((do
      World.record (.propResolved entry.1 value)
      let more ← resolveEntries context functions rest
      pure ((entry.1, value) :: more) : Run (World σ) FormError _) ⟨host, []⟩).1.failure? =
        some e ↔ (resolveEntries context functions rest ⟨host, []⟩).1.failure? = some e := by
    rw [World.fails_bind_iff (World.preserves_host_record _) fun _ => later_blind value,
      Outcome.map_fails_iff]
    simp [World.record, Run.modify, Outcome.failure?]
  have unfolded : resolveEntries context functions (entry :: rest) = (do
      let value ← resolveEntry context functions entry
      World.record (.propResolved entry.1 value)
      let more ← resolveEntries context functions rest
      pure ((entry.1, value) :: more)) := rfl
  rw [unfolded, World.fails_bind_iff entry_quiet
    fun value => (World.record_alike _ _).bind_eq fun _ => later_blind value]
  simp only [later_fails]

theorem Props.resolveEntries_fails_iff {functions : Functions σ}
    (quiet : ∀ name f, functions.get? name = some f → ∀ args, (f args).Quiet) (context : Context)
    (host : σ) (e : FormError) (entries : Entries Value) :
    (resolveEntries context functions entries ⟨host, []⟩).1.failure? = some e ↔
      ∃ before entry rest, entries = before ++ entry :: rest ∧
        (∀ earlier ∈ before, ∃ value,
          (resolveEntry context functions earlier ⟨host, []⟩).1 = .value value) ∧
          (resolveEntry context functions entry ⟨host, []⟩).1.failure? = some e := by
  induction entries with
  | nil =>
      constructor
      · intro failed
        cases failed
      · rintro ⟨before, entry, rest, split, -⟩
        simp at split
  | cons entry rest ih =>
      rw [resolveEntries_cons_fails_iff quiet]
      constructor
      · rintro (failed | ⟨value, resolved, rest_failed⟩)
        · exact ⟨[], entry, rest, rfl, nofun, failed⟩
        · obtain ⟨before, other, after, rfl, earlier, failed⟩ := ih.1 rest_failed
          refine ⟨entry :: before, other, after, rfl, ?_, failed⟩
          intro found mem
          rcases List.mem_cons.1 mem with rfl | mem
          · exact ⟨value, resolved⟩
          · exact earlier found mem
      · rintro ⟨before, other, after, split, earlier, failed⟩
        cases before with
        | nil =>
            cases split
            exact .inl failed
        | cons first before =>
            cases split
            obtain ⟨value, resolved⟩ := earlier entry List.mem_cons_self
            have rest_failed := ih.2 ⟨before, other, after, rfl,
              fun found mem => earlier found (List.mem_cons_of_mem _ mem), failed⟩
            exact .inr ⟨value, resolved, rest_failed⟩

theorem Props.resolve_fails_iff {functions : Functions σ}
    (quiet : ∀ name f, functions.get? name = some f → ∀ args, (f args).Quiet) (context : Context)
    (host : σ) (e : FormError) (props : Props) :
    (props.resolve context functions ⟨host, []⟩).1.failure? = some e ↔
      props.FailsWith context functions host e := by
  unfold Props.resolve FailsWith
  rw [Outcome.map_fails_iff, resolveEntries_fails_iff quiet]

namespace Item

/-- Renders an item with resolved props, without a memo. -/
def renderAnew (item : Item σ) (config : Config σ) (strategy : Strategy σ) (props : Props) :
    Run (World σ) FormError (Node σ) := do
  let handle ← Resolver.anew item.reference props config.registry.content
    (.ofExternal config.middlewares)
  World.onHost (strategy.render ⟨item.field, handle, props⟩ item.formItemProps)

def buildAnew (item : Item σ) (config : Config σ) (context : Context) (strategy : Strategy σ) :
    Run (World σ) FormError (Option (Node σ)) := do
  let props ← item.props.resolve context config.functions
  if Props.isHidden props then
    pure none
  else
    let node ← item.renderAnew config strategy props
    pure (some node)

/-- The outputs of an item rendered alone. -/
def alone (item : Item σ) (config : Config σ) (context : Context) (strategy : Strategy σ)
    (host : σ) : List (FieldOutput σ) :=
  Form.outputs config item.field
    ((item.buildAnew config context strategy ⟨host, []⟩).1.contained item.field)

def ShownWith (item : Item σ) (config : Config σ) (context : Context) (host : σ)
    (props : Props) : Prop :=
  (item.props.resolve context config.functions ⟨host, []⟩).1 = .value props ∧
    Props.isHidden props = false

/-- The stage that fails after the props, with its error; the stages before it succeed. -/
inductive RenderFailsWith (item : Item σ) (config : Config σ) (strategy : Strategy σ) (host : σ)
    (props : Props) : FormError → Prop where
  | middleware {e : FormError}
      (failed : ((Pipeline.ofExternal config.middlewares).select props
        ⟨host, []⟩).1.failure? = some e) :
      RenderFailsWith item config strategy host props e
  | lookup {flags : List Bool} {e : FormError}
      (selected : ((Pipeline.ofExternal config.middlewares).select props ⟨host, []⟩).1 =
        .value flags)
      (failed : item.reference.resolve config.registry.content = .error e) :
      RenderFailsWith item config strategy host props e
  | wrapping {flags : List Bool} {base : Handle σ} {p : Panic}
      (selected : ((Pipeline.ofExternal config.middlewares).select props ⟨host, []⟩).1 =
        .value flags)
      (found : item.reference.resolve config.registry.content = .ok base)
      (failed : ((Pipeline.ofExternal config.middlewares).compose base flags host).1 =
        .panic p) :
      RenderFailsWith item config strategy host props (.panicked p.text)
  | rendering {flags : List Bool} {base handle : Handle σ} {e : FormError}
      (selected : ((Pipeline.ofExternal config.middlewares).select props ⟨host, []⟩).1 =
        .value flags)
      (found : item.reference.resolve config.registry.content = .ok base)
      (wrapped : ((Pipeline.ofExternal config.middlewares).compose base flags host).1 =
        .value handle)
      (failed : (strategy.render ⟨item.field, handle, props⟩ item.formItemProps
        host).1.failure? = some e) :
      RenderFailsWith item config strategy host props e

/-- The item fails in its props, or is visible and fails in a later stage. -/
inductive FailsWith (item : Item σ) (config : Config σ) (context : Context)
    (strategy : Strategy σ) (host : σ) (e : FormError) : Prop where
  | props (failed : item.props.FailsWith context config.functions host e)
  | render {props : Props} (shown : item.ShownWith config context host props)
      (failed : item.RenderFailsWith config strategy host props e)

variable {known : Reference σ → Prop} {config : Config σ} {strategy : Strategy σ}
  {items : Schema σ} {item : Item σ}

theorem build_alike_anew (h : Unnoticed known config strategy) (context : Context)
    (is_known : known item.reference) :
    Run.Alike (Session.Beside known config.registry.content (.ofExternal config.middlewares)) Eq
      (item.build config context strategy) (item.buildAnew config context strategy) := by
  unfold Item.build Item.buildAnew Item.renderAnew
  simp only [bind_assoc]
  have resolving := Props.resolve_alike config.functions.alike_eq context item.props
  refine (Session.onWorld_beside resolving).bind_eq fun props => ?_
  split
  · exact fun s w beside => ⟨.value rfl, beside⟩
  · refine (Resolver.resolve_alike_anew h.steady h.unique is_known item.field props).bind ?_
    intro handle handle' same
    rw [h.sees.render_eq same]
    exact (Session.onWorld_beside (World.onHost_alike (.self _))).bind_eq fun node => .pure rfl

theorem renderAnew_eq (item : Item σ) (config : Config σ) (strategy : Strategy σ)
    (props : Props) :
    item.renderAnew config strategy props = (do
      let flags ← (Pipeline.ofExternal config.middlewares).select props
      let base ← Run.ofExcept (item.reference.resolve config.registry.content)
      let handle ← World.onHost ((Pipeline.ofExternal config.middlewares).compose base flags).lift
      World.onHost (strategy.render ⟨item.field, handle, props⟩ item.formItemProps)) := by
  unfold renderAnew Resolver.anew
  simp only [bind_assoc]

theorem renderAnew_blind (item : Item σ) (config : Config σ) (strategy : Strategy σ)
    (props : Props) : World.Blind (item.renderAnew config strategy props) := by
  rw [renderAnew_eq]
  refine (Pipeline.select_alike _ props).bind_eq fun flags => ?_
  refine (Run.Alike.ofExcept _).bind_eq fun base => ?_
  exact (World.onHost_alike (.self _)).bind_eq fun handle => World.onHost_alike (.self _)

theorem preserves_renderAnew (steady : (Pipeline.ofExternal config.middlewares).Steady)
    (quiet : QuietHost config items strategy) (mem : item ∈ items) (props : Props) :
    (item.renderAnew config strategy props).Preserves World.host := by
  rw [renderAnew_eq]
  refine (Pipeline.preserves_select quiet.filters props).bind fun flags => ?_
  refine Run.Preserves.bind_of (.ofExcept _) fun w base found => ?_
  have base_quiet : base.Quiet := Reference.quiet_of_resolve quiet mem (Run.value_of_ofExcept found)
  have composes := Pipeline.quiet_compose steady base flags
  refine (World.preserves_host_onHost composes.lift).bind_of fun w handle wrapped => ?_
  have handle_quiet : handle.Quiet :=
    Pipeline.quiet_of_compose quiet base_quiet (Run.value_of_lift wrapped)
  exact World.preserves_host_onHost (quiet.strategy.render _ handle_quiet _)

theorem preserves_buildAnew (steady : (Pipeline.ofExternal config.middlewares).Steady)
    (quiet : QuietHost config items strategy) (mem : item ∈ items) (context : Context) :
    (item.buildAnew config context strategy).Preserves World.host := by
  refine (Props.preserves_resolve quiet.functions context _).bind fun props => ?_
  split
  · exact .pure _
  · exact (preserves_renderAnew steady quiet mem props).bind fun _ => .pure _

theorem renderAnew_fails_iff (steady : (Pipeline.ofExternal config.middlewares).Steady)
    (quiet : QuietHost config items strategy) {props : Props} {host : σ} {e : FormError} :
    (item.renderAnew config strategy props ⟨host, []⟩).1.failure? = some e ↔
      item.RenderFailsWith config strategy host props e := by
  have wrapping_blind (flags : List Bool) (base : Handle σ) : World.Blind (do
      let handle ← World.onHost ((Pipeline.ofExternal config.middlewares).compose base flags).lift
      World.onHost (strategy.render ⟨item.field, handle, props⟩ item.formItemProps)) := by
    exact (World.onHost_alike (.self _)).bind_eq fun handle => World.onHost_alike (.self _)
  have lookup_blind (flags : List Bool) : World.Blind (do
      let base ← Run.ofExcept (item.reference.resolve config.registry.content)
      let handle ← World.onHost ((Pipeline.ofExternal config.middlewares).compose base flags).lift
      World.onHost (strategy.render ⟨item.field, handle, props⟩ item.formItemProps)) := by
    exact (Run.Alike.ofExcept _).bind_eq fun base => wrapping_blind flags base
  rw [renderAnew_eq, World.fails_bind_iff (Pipeline.preserves_select quiet.filters props) lookup_blind]
  have lookup (flags : List Bool) := World.fails_bind_iff
    (.ofExcept (item.reference.resolve config.registry.content)) (wrapping_blind flags) host e
  have wrapping (flags : List Bool) (base : Handle σ) := World.fails_bind_iff
    (World.preserves_host_onHost (Pipeline.quiet_compose steady base flags).lift)
    (fun handle => World.onHost_alike (.self (strategy.render ⟨item.field, handle, props⟩
      item.formItemProps))) host e
  constructor
  · rintro (failed | ⟨flags, selected, failed⟩)
    · exact .middleware failed
    rcases (lookup flags).1 failed with failed | ⟨base, found, failed⟩
    · exact .lookup selected (Outcome.ofExcept_fails_iff.1 failed)
    have is_found := Run.value_of_ofExcept found
    rcases (wrapping flags base).1 failed with failed | ⟨handle, wrapped, failed⟩
    · rw [World.onHost_fst] at failed
      obtain ⟨p, panicked, rfl⟩ := Outcome.lift_fails_iff.1 failed
      exact .wrapping selected is_found panicked
    · exact .rendering selected is_found (Run.value_of_lift wrapped) failed
  · intro failing
    cases failing with
    | middleware failed => exact .inl failed
    | lookup selected failed =>
        exact .inr ⟨_, selected, (lookup _).2 (.inl (Outcome.ofExcept_fails_iff.2 failed))⟩
    | wrapping selected found failed =>
        refine .inr ⟨_, selected, (lookup _).2 (.inr ⟨_, by rw [found]; rfl, ?_⟩)⟩
        exact (wrapping _ _).2 (.inl (Outcome.lift_fails_iff.2 ⟨_, failed, rfl⟩))
    | rendering selected found wrapped failed =>
        refine .inr ⟨_, selected, (lookup _).2 (.inr ⟨_, by rw [found]; rfl, ?_⟩)⟩
        exact (wrapping _ _).2 (.inr ⟨_, Run.lift_of_value wrapped, failed⟩)

/-- An item fails exactly where one of its stages does, with that error. -/
theorem buildAnew_fails_iff (steady : (Pipeline.ofExternal config.middlewares).Steady)
    (quiet : QuietHost config items strategy) {context : Context} {host : σ} {e : FormError} :
    (item.buildAnew config context strategy ⟨host, []⟩).1.failure? = some e ↔
      item.FailsWith config context strategy host e := by
  have props_quiet := Props.preserves_resolve quiet.functions context item.props
  have rest_blind (props : Props) : World.Blind (if Props.isHidden props then pure none else do
      let node ← item.renderAnew config strategy props
      pure (some node)) := by
    split
    · exact .pure rfl
    · exact (item.renderAnew_blind config strategy props).bind_eq fun node => .pure rfl
  unfold buildAnew
  rw [World.fails_bind_iff props_quiet rest_blind, Props.resolve_fails_iff quiet.functions]
  constructor
  · rintro (failed | ⟨props, resolved, failed⟩)
    · exact .props failed
    · split at failed
      · cases failed
      · next visible =>
        have rendered := (renderAnew_fails_iff steady quiet).1 (Outcome.map_fails_iff.1 failed)
        exact .render ⟨resolved, Bool.eq_false_iff.2 visible⟩ rendered
  · intro failing
    cases failing with
    | props failed => exact .inl failed
    | render shown failed =>
        obtain ⟨resolved, visible⟩ := shown
        refine .inr ⟨_, resolved, ?_⟩
        rw [visible]
        exact Outcome.map_fails_iff.2 ((renderAnew_fails_iff steady quiet).2 failed)

theorem isolate_build (h : Unnoticed known config strategy) (is_known : known item.reference)
    (quiet : QuietHost config items strategy) (mem : item ∈ items) (context : Context)
    (s : Session σ) (faithful : s.resolver.Faithful known config.registry.content
      (.ofExternal config.middlewares)) :
    let ended := isolate item.field true (item.build config context strategy) s
    ended.1 = .value ((item.buildAnew config context strategy ⟨s.world.host, []⟩).1.contained
        item.field) ∧
      ended.2.world.host = s.world.host ∧ ended.2.resolver.Faithful known config.registry.content
        (.ofExternal config.middlewares) := by
  intro ended
  obtain ⟨outcome, host, resolver⟩ :=
    isolate_eq item.field (item.build config context strategy) s
  obtain ⟨alike, beside⟩ := build_alike_anew h context is_known s ⟨s.world.host, []⟩
    ⟨rfl, faithful⟩
  have kept := preserves_buildAnew h.steady quiet mem context ⟨s.world.host, []⟩
  refine ⟨?_, ?_, ?_⟩
  · rw [← alike.eq]
    exact outcome
  · exact host.trans (beside.1.trans kept)
  · rw [resolver]
    exact beside.2

theorem alone_keys (item : Item σ) (config : Config σ) (context : Context)
    (strategy : Strategy σ) (host : σ) :
    List.Sublist ((item.alone config context strategy host).map (·.key)) [item.field] := by
  unfold alone
  rcases (item.buildAnew config context strategy ⟨host, []⟩).1.contained item.field with
    e | _ | node
  · exact .refl _
  · exact List.nil_sublist _
  · exact .refl _

theorem alone_of_fails (steady : (Pipeline.ofExternal config.middlewares).Steady)
    (quiet : QuietHost config items strategy) {context : Context} {host : σ} {e : FormError}
    (fails : item.FailsWith config context strategy host e) :
    item.alone config context strategy host =
      [⟨item.field, .placeholder config.options.placeholder, some ⟨item.field, e⟩⟩] := by
  unfold alone
  rw [Outcome.contained_of_failure ((buildAnew_fails_iff steady quiet).2 fails)]
  rfl

end Item

namespace Form

variable {known : Reference σ → Prop} {config : Config σ} {strategy : Strategy σ}
  {items : Schema σ}

/-- A pass gives the items' outputs one after the other, each as if rendered alone. -/
theorem renderItems_alone (h : Unnoticed known config strategy)
    (catches : config.options.catchPanics = true) (quiet : QuietHost config items strategy)
    (are_known : ∀ item ∈ items, known item.reference) (context : Context) {some_items : Schema σ}
    (sub : some_items ⊆ items) (seen : List String) (s : Session σ)
    (faithful : s.resolver.Faithful known config.registry.content
      (.ofExternal config.middlewares)) :
    let ended := renderItems config context strategy seen some_items s
    ended.1 = .value (some_items.flatMap fun item =>
        item.alone config context strategy s.world.host) ∧
      ended.2.world.host = s.world.host ∧ ended.2.resolver.Faithful known config.registry.content
        (.ofExternal config.middlewares) := by
  induction some_items generalizing seen s with
  | nil => exact ⟨rfl, rfl, faithful⟩
  | cons item rest ih =>
      have mem : item ∈ items := sub List.mem_cons_self
      obtain ⟨s', noted, same_host, same_memo⟩ :=
        noteRepeated_eq (ε := Empty) item.field (seen.contains item.field) s
      rw [← same_memo] at faithful
      obtain ⟨outcome, host, still_faithful⟩ :=
        Item.isolate_build h (are_known item mem) quiet mem context s' faithful
      obtain ⟨t, isolated⟩ := Outcome.exists_state_of_fst outcome
      rw [isolated] at host still_faithful
      obtain ⟨rest_outcome, rest_host, rest_faithful⟩ :=
        ih (List.subset_of_cons_subset sub) (item.field :: seen) t still_faithful
      obtain ⟨u, rendered⟩ := Outcome.exists_state_of_fst rest_outcome
      rw [rendered] at rest_host rest_faithful
      have here : t.world.host = s.world.host := host.trans same_host
      intro ended
      have ends : ended = (.value (item.alone config context strategy s.world.host ++
          rest.flatMap fun item => item.alone config context strategy s.world.host), u) := by
        simp only [ended]
        rw [renderItems_cons, Run.bind_of_value noted, catches, Run.bind_of_value isolated,
          Run.bind_of_value rendered, here, same_host]
        rfl
      rw [ends]
      exact ⟨rfl, rest_host.trans here, rest_faithful⟩

theorem render_alone (h : Unnoticed known config strategy)
    (catches : config.options.catchPanics = true) (quiet : QuietHost config items strategy)
    (are_known : ∀ item ∈ items, known item.reference) {some_items : Schema σ}
    (sub : some_items ⊆ items) (data : Props) (s : Session σ)
    (faithful : s.resolver.Faithful known config.registry.content
      (.ofExternal config.middlewares)) :
    let ended := render config some_items data strategy s
    let context := Context.merge (strategy.liveValues s.world.host) data config.options.precedence
    ended.1 = .value (some_items.flatMap fun item =>
        item.alone config context strategy s.world.host) ∧
      ended.2.world.host = s.world.host ∧ ended.2.resolver.Faithful known config.registry.content
        (.ofExternal config.middlewares) := by
  intro ended context
  obtain ⟨outcome, host, still_faithful⟩ :=
    renderItems_alone h catches quiet are_known context sub [] s faithful
  obtain ⟨t, rendered⟩ := Outcome.exists_state_of_fst outcome
  rw [rendered] at host still_faithful
  have ends : ended = ((do
      Session.updateResolver (·.retainFields (some_items.map (·.field)))
      Session.record (.passFinished (some_items.flatMap fun item =>
        item.alone config context strategy s.world.host).length some_items.length)
      pure (some_items.flatMap fun item => item.alone config context strategy s.world.host) :
      Run (Session σ) Empty (List (FieldOutput σ))) t) := by
    simp only [ended, render]
    rw [Run.read_bind_apply, Run.bind_of_value rendered]
  rw [ends]
  exact ⟨rfl, host, still_faithful.retainFields _⟩

end Form

namespace Renderer

variable {known : Reference σ → Prop} {s : World σ × Renderer σ} {strategy : Strategy σ}
  {items : Schema σ}

def alone (s : World σ × Renderer σ) (data : Props) (strategy : Strategy σ) (item : Item σ) :
    List (FieldOutput σ) :=
  item.alone s.2.config
    (Context.merge (strategy.liveValues s.1.host) data s.2.config.options.precedence) strategy
    s.1.host

theorem alone_congr {t : World σ × Renderer σ} {data : Props} (config : t.2.config = s.2.config)
    (host : t.1.host = s.1.host) : alone t data strategy = alone s data strategy := by
  unfold alone
  rw [config, host]

theorem render_alone (h : Unnoticed known s.2.config strategy)
    (catches : s.2.config.options.catchPanics = true)
    (quiet : QuietHost s.2.config items strategy)
    (are_known : ∀ item ∈ items, known item.reference) {some_items : Schema σ}
    (sub : some_items ⊆ items) (data : Props) (sound : Sound known s) :
    let ended := render some_items data strategy s
    ended.1 = .value (some_items.flatMap (alone s data strategy)) ∧
      ended.2.1.host = s.1.host ∧ ended.2.2.config = s.2.config ∧ Sound known ended.2 := by
  intro ended
  obtain ⟨outcome, host, faithful⟩ := Form.render_alone h catches quiet are_known sub data
    ⟨s.1, s.2.resolver⟩ sound.faithful
  exact ⟨outcome, host, rfl, sound.steady, faithful⟩

/-- Passes are compositional. In every reachable state, with panics caught and a quiet host, each
item has the outputs it has alone, whatever the other items are; the outputs of `xs ++ ys` are those
of `xs` and then of `ys`, in one pass or in two; and a failing item gives its placeholder, with the
error under its own field. -/
theorem render_append (config : Config σ) (world : World σ) (before : List (Action σ))
    (xs ys : Schema σ) (data : Props) (strategy : Strategy σ) (s : World σ × Renderer σ)
    (reached : after before (world, ofConfig config) = s)
    (keeps : HostKeeps config (before ++ [.render (xs ++ ys) data strategy]))
    (catches : s.2.config.options.catchPanics = true)
    (quiet : QuietHost s.2.config (xs ++ ys) strategy) :
    (∃ as bs, (render xs data strategy s).1 = .value as ∧
      (render ys data strategy s).1 = .value bs ∧
      (render ys data strategy (render xs data strategy s).2).1 = .value bs ∧
      (render (xs ++ ys) data strategy s).1 = .value (as ++ bs)) ∧
    (∀ zs ⊆ xs ++ ys,
      (render zs data strategy s).1 = .value (zs.flatMap (alone s data strategy))) ∧
    (∀ item ∈ xs ++ ys,
      List.Sublist ((alone s data strategy item).map (·.key)) [item.field] ∧
      ∀ e, item.FailsWith s.2.config
          (Context.merge (strategy.liveValues s.1.host) data s.2.config.options.precedence)
          strategy s.1.host e →
        alone s data strategy item =
          [⟨item.field, .placeholder s.2.config.options.placeholder, some ⟨item.field, e⟩⟩]) := by
  subst reached
  have sound := keeps.sound_after world fun action mem =>
    List.mem_append_left [.render (xs ++ ys) data strategy] mem
  have fits := keeps.fits (List.mem_append_right before List.mem_cons_self)
  have unnoticed := Unnoticed.mk sound.steady keeps.shares.unique
    (fits.sees strategy List.mem_cons_self)
  have are_known (item : Item σ) (mem : item ∈ xs ++ ys) :=
    fits.are_known item.reference (List.mem_map_of_mem mem)
  have passes {zs : Schema σ} (sub : zs ⊆ xs ++ ys) :=
    render_alone unnoticed catches quiet are_known sub data sound
  refine ⟨?_, fun zs sub => (passes sub).1, ?_⟩
  · obtain ⟨left, host, same_config, still_sound⟩ := passes (List.subset_append_left xs ys)
    obtain ⟨right, -⟩ := passes (List.subset_append_right xs ys)
    obtain ⟨both, -⟩ := passes (List.Subset.refl (xs ++ ys))
    refine ⟨_, _, left, right, ?_, ?_⟩
    · have unchanged : alone (render xs data strategy _).2 data strategy = alone _ data strategy :=
        alone_congr same_config host
      rw [← same_config] at unnoticed catches quiet
      rw [← unchanged]
      exact (render_alone unnoticed catches quiet are_known (List.subset_append_right xs ys) data
        still_sound).1
    · rw [both, List.flatMap_append]
  · intro item mem
    exact ⟨item.alone_keys _ _ _ _, fun e => item.alone_of_fails sound.steady quiet⟩

end Renderer

namespace Sample

open Renderer

theorem quiet_wrappedBy {hoc : Hoc MemoryState} (keeps : hoc.KeepsQuiet) (catchPanics : Bool)
    {items : Schema MemoryState} (by_key : ∀ item ∈ items, ∃ key, item.reference = .named key)
    {strategy : Strategy MemoryState} (strategy_quiet : strategy.Quiet) :
    QuietHost (wrappedBy catchPanics hoc) items strategy where
  functions name f found args := by
    rw [Functions.eq_dynamicCommon_of_initial found]
    exact .pure _
  filters m mem filter some_filter props := by
    obtain rfl := List.mem_singleton.1 mem
    cases some_filter
    exact .pure _
  hocs m mem hoc some_hoc := by
    obtain rfl := List.mem_singleton.1 mem
    cases some_hoc
    exact keeps
  registry key h found := by
    have among : Entries.get? key [("Input", ⟨input, .shared 0⟩),
        ("Exploding", ⟨exploding, .shared 1⟩)] = some h := found
    simp only [Entries.get?] at among
    split at among
    · cases among
      exact fun props binding => .pure _
    · split at among
      · cases among
        exact fun props binding s => rfl
      · cases among
  directs item mem h is_direct := by
    obtain ⟨key, named⟩ := by_key item mem
    rw [named] at is_direct
    cases is_direct
  strategy := strategy_quiet

theorem keepsQuiet_boxed :
    Hoc.KeepsQuiet fun inner => pure (.ofComponent (boxed inner.toComponent)) := by
  intro inner s wrapped inner_quiet made
  cases made
  exact fun props binding => (inner_quiet props binding).bind fun node => .pure _

theorem quiet (catchPanics : Bool) :
    QuietHost (config catchPanics) [name, broken] strategy :=
  quiet_wrappedBy keepsQuiet_boxed catchPanics
    (by simp [name, broken, Item.ofReference]) trivial

/-- After a pass and a typed value, the panicking field gives its placeholder and the other its
node. -/
theorem render_isolates :
    let s := after history (⟨.ofValues .empty, []⟩, ofConfig (config true))
    (render [name, broken] .empty strategy s).1 = .value
      [⟨"name", .element "box" .empty none [.element "input"
          (Record.empty.insert "value" (.string "Ada"))
          (some fun value => .modify fun memory => memory.setValue "name" value) []], none⟩,
        ⟨"broken", .placeholder Options.defaultPlaceholder,
          some ⟨"broken", .panicked "corrupted"⟩⟩] := by
  intro s
  obtain ⟨-, fieldwise, each⟩ := render_append (config true) ⟨.ofValues .empty, []⟩
    history [name] [broken] .empty strategy s rfl
    (keeps true .empty) rfl (quiet true)
  have fails : broken.FailsWith s.2.config
      (Context.merge (strategy.liveValues s.1.host) .empty s.2.config.options.precedence)
      strategy s.1.host (.panicked "corrupted") :=
    .render ⟨rfl, rfl⟩ (.rendering rfl rfl rfl rfl)
  have placeholder := (each broken (by simp)).2 _ fails
  rw [fieldwise [name, broken] (List.Subset.refl _), List.flatMap_cons,
    List.flatMap_cons, placeholder]
  rfl

def renamed : Item MemoryState := .ofReference "name" (.named "Exploding")

theorem keepsQuiet_stamp : Hoc.KeepsQuiet stamp := by
  intro inner s wrapped _ made
  cases made
  exact fun props binding => .pure _

/-- Compositionality fails for a wrapper that reads the form state, and for a callback that compares
handles, although no host code writes. After the first of two items of one field, the second is
built again; alone, it is found in the memo, as an earlier pass has built it. -/
theorem render_append_noticed :
    (let s := retyped (wrappedBy true stamp) [name] strategy
     s.2.config.options.catchPanics = true ∧ QuietHost s.2.config [renamed, name] strategy ∧
      (∀ inner memory, (stamp inner memory).2 = memory) ∧
      (render [renamed] .empty strategy s).1 = .value [shown "Grace"] ∧
      (render [name] .empty strategy s).1 = .value [shown "Ada"] ∧
      (render ([renamed] ++ [name]) .empty strategy s).1 ≠
        .value ([shown "Grace"] ++ [shown "Ada"])) ∧
    (let s := retyped (config true) [broken, name] identify
     s.2.config.options.catchPanics = true ∧ QuietHost s.2.config [renamed, name] identify ∧
      (∀ m ∈ s.2.config.middlewares.content, ∀ hoc, m.hoc = some hoc → Hoc.Steady hoc) ∧
      (render [renamed] .empty identify s).1 = .value [shown "new"] ∧
      (render [name] .empty identify s).1 = .value [shown "kept"] ∧
      (render ([renamed] ++ [name]) .empty identify s).1 ≠
        .value ([shown "new"] ++ [shown "kept"])) := by
  have by_key : ∀ item ∈ [renamed, name], ∃ key, item.reference = .named key := by
    simp [renamed, name, Item.ofReference]
  have apart {leading expected found : String} (ne : found ≠ expected) :
      (.value [shown leading, shown found] : Outcome Empty (List (FieldOutput MemoryState))) ≠
        .value ([shown leading] ++ [shown expected]) := by
    intro same
    obtain ⟨-, rest⟩ := List.cons.inj (Outcome.value.inj same)
    exact shown_ne ne (List.cons.inj rest).1
  constructor
  · refine ⟨rfl, quiet_wrappedBy keepsQuiet_stamp true by_key trivial, fun _ _ => rfl, rfl, rfl, ?_⟩
    exact apart (show "Grace" ≠ "Ada" by decide)
  · refine ⟨rfl, ?_, fun m mem hoc => steady_of_mem mem, rfl, rfl, ?_⟩
    · exact quiet_wrappedBy keepsQuiet_boxed true by_key fun _ _ => .pure _
    · exact apart (show "new" ≠ "kept" by decide)

end Sample

end Formwork
