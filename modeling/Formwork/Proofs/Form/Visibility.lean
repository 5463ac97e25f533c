import Formwork.Proofs.Form.Pass
import Formwork.Proofs.Run.Preserves

/-!
# Visibility

Whether a field is shown, and with which props, is determined by the raw props, the functions and
the initial context of the pass. All decisions can therefore be made before the first item is
rendered.
-/

namespace Formwork

variable {σ ε ε' α : Type}

/-- Performs the state change of a run and discards its outcome. -/
def Run.effects (m : Run σ ε α) : Run σ ε' Unit := .modify fun s => (m s).2

/-- The outcome of every function depends on its arguments alone; its effects are arbitrary. -/
def Functions.ByArguments (functions : Functions σ) : Prop :=
  ∀ name f, functions.get? name = some f → ∀ args s t, (f args s).1 = (f args t).1

theorem Functions.ByArguments.alike {functions : Functions σ} (h : functions.ByArguments) :
    functions.Alike fun _ _ => True := by
  intro name f found args s t _
  refine ⟨?_, trivial⟩
  rw [h name f found args s t]
  rcases (f args t).1 with a | e | p
  · exact .value rfl
  · exact .error e
  · exact .panic p

/-- The outcome of resolving and checking the props of an item: an error, hidden, or the props to
render with. -/
inductive Decision where
  | failed (e : FormError)
  | hidden
  | shown (props : Props)

namespace Decision

def ofResolution : Outcome FormError Props → Decision
  | .value props => if Props.isHidden props then .hidden else .shown props
  | .error e => .failed e
  | .panic p => .failed (.panicked p.text)

def ofProps (context : Context) (functions : Functions σ) (host : σ) (props : Props) : Decision :=
  ofResolution (props.resolve context functions ⟨host, []⟩).1

def isHidden : Decision → Bool
  | .hidden => true
  | _ => false

def isShown : Decision → Bool
  | .shown _ => true
  | _ => false

theorem isHidden_ofProps {context : Context} {functions : Functions σ} {host : σ} {props : Props} :
    (ofProps context functions host props).isHidden = true ↔
      ∃ resolved, (props.resolve context functions ⟨host, []⟩).1 = .value resolved ∧
        Props.isHidden resolved = true := by
  unfold ofProps
  rcases (props.resolve context functions ⟨host, []⟩).1 with resolved | e | p
  · cases h : Props.isHidden resolved <;> simp [ofResolution, isHidden, h]
  · exact ⟨nofun, nofun⟩
  · exact ⟨nofun, nofun⟩

theorem ofProps_eq_shown {context : Context} {functions : Functions σ} {host : σ}
    {props resolved : Props} :
    ofProps context functions host props = .shown resolved ↔
      (props.resolve context functions ⟨host, []⟩).1 = .value resolved ∧
        Props.isHidden resolved = false := by
  unfold ofProps
  rcases (props.resolve context functions ⟨host, []⟩).1 with other | e | p
  · cases h : Props.isHidden other
    · simp only [ofResolution, h]
      constructor
      · rintro ⟨⟩
        exact ⟨rfl, h⟩
      · rintro ⟨⟨⟩, -⟩
        rfl
    · simp only [ofResolution, h]
      constructor
      · nofun
      · rintro ⟨⟨⟩, visible⟩
        rw [h] at visible
        cases visible
  · exact ⟨nofun, nofun⟩
  · exact ⟨nofun, nofun⟩

theorem ofProps_host {functions : Functions σ} (h : functions.ByArguments) (context : Context)
    (w : World σ) (host : σ) (props : Props) :
    ofResolution (props.resolve context functions w).1 = ofProps context functions host props := by
  unfold ofProps
  rw [(Props.resolve_alike h.alike context props w ⟨host, []⟩ trivial).1.eq]

end Decision

theorem Session.onWorld_effects_bind {β : Type} (m : Run (World σ) ε α)
    (f : Unit → Run (Session σ) ε' β) (s : Session σ) :
    (onWorld m.effects >>= f) s = f () { s with world := (m s.world).2 } := rfl

namespace Resolver

theorem preserves_resolutions (m : Run (World σ) ε α) :
    (Session.onWorld m).Preserves fun s => s.resolver.resolutions := fun _ => rfl

theorem preserves_resolutions_build (field : String) (reference : Reference σ) (key : MemoKey)
    (registry : Shared (Registry σ)) (p : Pipeline σ) :
    (build field reference key registry p).Preserves fun s => s.resolver.resolutions := by
  refine Run.Preserves.bind (.ofExcept _) fun base => ?_
  refine (preserves_resolutions _).bind fun wrapped => ?_
  refine Run.Preserves.bind (.read _) fun builds => ?_
  refine (preserves_resolutions _).bind fun _ => ?_
  exact Run.Preserves.bind (.modify fun _ => rfl) fun _ => .pure _

/-- A request is counted once, whatever its outcome. -/
theorem resolutions_resolve (field : String) (reference : Reference σ) (props : Props)
    (registry : Shared (Registry σ)) (p : Pipeline σ) (s : Session σ) :
    (resolve field reference props registry p s).2.resolver.resolutions =
      s.resolver.resolutions + 1 := by
  rw [resolve, Session.updateResolver, Run.modify_bind_apply]
  refine Run.Preserves.bind (f := fun s : Session σ => s.resolver.resolutions)
    (preserves_resolutions _) (fun flags => ?_) _
  refine Run.Preserves.bind (.read _) fun known => ?_
  cases known with
  | some handle => exact (preserves_resolutions _).bind fun _ => .pure _
  | none => exact preserves_resolutions_build _ _ _ _ _

end Resolver

namespace Item

/-- Builds an item from its decision. -/
def follow (item : Item σ) (config : Config σ) (strategy : Strategy σ) :
    Decision → Run (Session σ) FormError (Option (Node σ))
  | .failed e => .fail e
  | .hidden => do
    Session.record (.fieldHidden item.field)
    pure none
  | .shown props => do
    let handle ← Resolver.resolve item.field item.reference props config.registry
      (.ofExternal config.middlewares)
    let node ← Session.onHost (strategy.render ⟨item.field, handle, props⟩ item.formItemProps)
    pure (some node)

/-- Builds an item whose decision is given. Props are still resolved, for the effects of the
functions. -/
def buildDecided (item : Item σ) (config : Config σ) (context : Context) (strategy : Strategy σ)
    (decision : Decision) : Run (Session σ) FormError (Option (Node σ)) := do
  Session.onWorld (item.props.resolve context config.functions).effects
  item.follow config strategy decision

variable {item : Item σ} {config : Config σ} {strategy : Strategy σ}

/-- Building an item is following the decision that its resolved props determine. -/
theorem build_eq_follow (item : Item σ) (config : Config σ) (context : Context)
    (strategy : Strategy σ) :
    item.build config context strategy = (do
      let props ← Session.onWorld (item.props.resolve context config.functions)
      item.follow config strategy (.ofResolution (.value props))) := by
  unfold build
  congr 1
  funext props
  cases h : Props.isHidden props <;> simp only [Decision.ofResolution, h] <;> rfl

theorem isolate_build_eq_decided (byArguments : config.functions.ByArguments)
    (context : Context) (host : σ) :
    isolate item.field true (item.build config context strategy) =
      isolate item.field true (item.buildDecided config context strategy
        (.ofProps context config.functions host item.props)) := by
  funext s
  have decided := Decision.ofProps_host byArguments context s.world host item.props
  rw [build_eq_follow, ← decided]
  have ends : ∀ x, item.props.resolve context config.functions s.world = x →
      isolate item.field true (do
        let props ← Session.onWorld (item.props.resolve context config.functions)
        item.follow config strategy (.ofResolution (.value props))) s =
      isolate item.field true
        (item.buildDecided config context strategy (.ofResolution x.1)) s := by
    rintro ⟨o, w⟩ resolved
    have resolves : Session.onWorld (item.props.resolve context config.functions) s =
        (o, { s with world := w }) := by
      simp only [Session.onWorld, Run.onPart, resolved]
    have effects : (Session.onWorld (item.props.resolve context config.functions).effects :
        Run (Session σ) FormError Unit) s = (.value (), { s with world := w }) := by
      simp only [Session.onWorld, Run.onPart, Run.effects, Run.modify, resolved]
    cases o with
    | value props =>
        apply isolate_congr
        all_goals rw [Run.bind_of_value resolves, buildDecided, Run.bind_of_value effects]
    | error e =>
        apply isolate_congr
        all_goals rw [Run.bind_of_error resolves, buildDecided, Run.bind_of_value effects]; rfl
    | panic p =>
        apply isolate_congr
        all_goals rw [Run.bind_of_panic resolves, buildDecided, Run.bind_of_value effects]; rfl
  exact ends _ rfl

/-- A hidden item has the effects of its functions only, whatever its component, wrappers and
strategy. -/
theorem build_of_hidden (byArguments : config.functions.ByArguments) {context : Context}
    {host : σ} (hidden : (Decision.ofProps context config.functions host
      item.props).isHidden = true) (s : Session σ) :
    item.build config context strategy s = (do
      Session.onWorld (item.props.resolve context config.functions).effects
      Session.record (.fieldHidden item.field)
      pure none : Run (Session σ) FormError (Option (Node σ))) s := by
  rw [← Decision.ofProps_host byArguments context s.world] at hidden
  generalize resolved : item.props.resolve context config.functions s.world = x at hidden
  rcases x with ⟨props | e | p, w⟩
  · have is_hidden : Decision.ofResolution (.value props) = .hidden := by
      cases h : Props.isHidden props
      · simp [Decision.ofResolution, Decision.isHidden, h] at hidden
      · simp [Decision.ofResolution, h]
    have resolves : Session.onWorld (item.props.resolve context config.functions) s =
        (.value props, { s with world := w }) := by
      simp only [Session.onWorld, Run.onPart, resolved]
    rw [build_eq_follow, Run.bind_of_value resolves, is_hidden, Session.onWorld_effects_bind,
      resolved]
    rfl
  · cases hidden
  · cases hidden

theorem follow_shown_ne_none (item : Item σ) (config : Config σ) (strategy : Strategy σ)
    (props : Props) (s : Session σ) :
    (item.follow config strategy (.shown props) s).1 ≠ .value none := by
  have follows : item.follow config strategy (.shown props) = (do
      let node ← (do
        let handle ← Resolver.resolve item.field item.reference props config.registry
          (.ofExternal config.middlewares)
        Session.onHost (strategy.render ⟨item.field, handle, props⟩ item.formItemProps))
      pure (some node)) := by
    simp only [follow, bind_assoc]
  rw [follows, Run.bind_apply]
  split
  all_goals
    intro none_shown
    cases none_shown

theorem outputs_keys_decided (item : Item σ) (config : Config σ) (context : Context)
    (strategy : Strategy σ) (decision : Decision) (s : Session σ) :
    (Form.outputs config item.field
      ((item.buildDecided config context strategy decision s).1.contained item.field)).map
        (·.key) = if decision.isHidden then [] else [item.field] := by
  rw [buildDecided, Session.onWorld_effects_bind]
  cases decision with
  | failed e => rfl
  | hidden => rfl
  | shown props =>
      have shows := item.follow_shown_ne_none config strategy props { s with
        world := (item.props.resolve context config.functions s.world).2 }
      generalize item.follow config strategy (.shown props) _ = x at shows
      rcases x with ⟨⟨_ | node⟩ | e | p, t⟩
      · exact (shows rfl).elim
      · rfl
      · rfl
      · rfl

theorem resolutions_decided (item : Item σ) (config : Config σ) (context : Context)
    (strategy : Strategy σ) (decision : Decision) (s : Session σ) :
    (item.buildDecided config context strategy decision s).2.resolver.resolutions =
      s.resolver.resolutions + if decision.isShown then 1 else 0 := by
  rw [buildDecided, Session.onWorld_effects_bind]
  cases decision with
  | failed e => rfl
  | hidden => rfl
  | shown props =>
      have requested := Resolver.resolutions_resolve item.field item.reference props
        config.registry (.ofExternal config.middlewares) { s with
          world := (item.props.resolve context config.functions s.world).2 }
      refine Eq.trans (Run.Preserves.bind_snd (f := fun s : Session σ => s.resolver.resolutions)
        (fun handle => ?_) _) requested
      exact (Resolver.preserves_resolutions _).bind fun node => .pure _

end Item

namespace Form

def renderDecided (config : Config σ) (context : Context) (strategy : Strategy σ) :
    (seen : List String) → List (Item σ × Decision) →
      Run (Session σ) Empty (List (FieldOutput σ))
  | _, [] => pure []
  | seen, (item, decision) :: rest => do
    if seen.contains item.field then Session.record (.duplicateField item.field)
    let result ← isolate item.field config.options.catchPanics
      (item.buildDecided config context strategy decision)
    let more ← renderDecided config context strategy (item.field :: seen) rest
    pure (outputs config item.field result ++ more)

theorem renderDecided_cons (config : Config σ) (context : Context) (strategy : Strategy σ)
    (seen : List String) (item : Item σ) (decision : Decision) (rest : List (Item σ × Decision)) :
    renderDecided config context strategy seen ((item, decision) :: rest) = (do
      (if seen.contains item.field then Session.record (.duplicateField item.field) else pure ())
      let result ← isolate item.field config.options.catchPanics
        (item.buildDecided config context strategy decision)
      let more ← renderDecided config context strategy (item.field :: seen) rest
      pure (outputs config item.field result ++ more)) := by
  rw [renderDecided]
  split <;> rfl

variable {config : Config σ} {strategy : Strategy σ}

theorem renderItems_eq_decided (catches : config.options.catchPanics = true)
    (byArguments : config.functions.ByArguments) (context : Context) (host : σ)
    (seen : List String) (items : Schema σ) :
    renderItems config context strategy seen items =
      renderDecided config context strategy seen
        (items.map fun item => (item, .ofProps context config.functions host item.props)) := by
  induction items generalizing seen with
  | nil => rfl
  | cons item rest ih =>
      rw [renderItems_cons, List.map_cons, renderDecided_cons, catches,
        Item.isolate_build_eq_decided byArguments context host, ih]

theorem renderDecided_spec (catches : config.options.catchPanics = true) (context : Context)
    (strategy : Strategy σ) (seen : List String) (decided : List (Item σ × Decision))
    (s : Session σ) :
    let ended := renderDecided config context strategy seen decided s
    (∃ outs, ended.1 = .value outs ∧ outs.map (·.key) =
      (decided.filter fun d => !d.2.isHidden).map (·.1.field)) ∧
      ended.2.resolver.resolutions =
        s.resolver.resolutions + (decided.filter (·.2.isShown)).length := by
  induction decided generalizing seen s with
  | nil => exact ⟨⟨[], rfl, rfl⟩, rfl⟩
  | cons d rest ih =>
      rcases d with ⟨item, decision⟩
      obtain ⟨s', noted, -, same_memo⟩ :=
        noteRepeated_eq (ε := Empty) item.field (seen.contains item.field) s
      obtain ⟨outcome, -, resolver⟩ :=
        isolate_eq item.field (item.buildDecided config context strategy decision) s'
      obtain ⟨t, isolated⟩ := Outcome.exists_state_of_fst outcome
      rw [isolated] at resolver
      have keys := item.outputs_keys_decided config context strategy decision s'
      have requests := item.resolutions_decided config context strategy decision s'
      obtain ⟨⟨outs, rest_outcome, rest_keys⟩, rest_requests⟩ := ih (item.field :: seen) t
      obtain ⟨u, rendered⟩ := Outcome.exists_state_of_fst rest_outcome
      intro ended
      have ends : ended = (.value (outputs config item.field
          ((item.buildDecided config context strategy decision s').1.contained item.field) ++ outs),
          u) := by
        simp only [ended]
        rw [renderDecided_cons, Run.bind_of_value noted, catches, Run.bind_of_value isolated,
          Run.bind_of_value rendered]
        rfl
      rw [rendered, resolver, requests, same_memo] at rest_requests
      rw [ends]
      refine ⟨⟨_, rfl, ?_⟩, ?_⟩
      · rw [List.map_append, keys, rest_keys, List.filter_cons]
        cases decision.isHidden <;> rfl
      · rw [rest_requests, List.filter_cons]
        cases decision.isShown
        · rfl
        · simp only [if_true, List.length_cons]
          omega

/-- A pass over items whose decisions are all given. -/
def renderAllDecided (config : Config σ) (context : Context) (strategy : Strategy σ)
    (decided : List (Item σ × Decision)) : Run (Session σ) Empty (List (FieldOutput σ)) := do
  let outputs ← renderDecided config context strategy [] decided
  Session.updateResolver (·.retainFields (decided.map (·.1.field)))
  Session.record (.passFinished outputs.length decided.length)
  pure outputs

def decided (config : Config σ) (items : Schema σ) (data : Props) (strategy : Strategy σ)
    (host : σ) : List (Item σ × Decision) :=
  let context := Context.merge (strategy.liveValues host) data config.options.precedence
  items.map fun item => (item, .ofProps context config.functions host item.props)

theorem render_eq_decided (catches : config.options.catchPanics = true)
    (byArguments : config.functions.ByArguments) (items : Schema σ) (data : Props)
    (s : Session σ) :
    render config items data strategy s =
      renderAllDecided config
        (Context.merge (strategy.liveValues s.world.host) data config.options.precedence) strategy
        (decided config items data strategy s.world.host) s := by
  rw [render, Run.read_bind_apply,
    renderItems_eq_decided catches byArguments _ s.world.host]
  simp only [renderAllDecided, decided, List.map_map, List.length_map]
  rfl

theorem renderAllDecided_spec (catches : config.options.catchPanics = true) (context : Context)
    (strategy : Strategy σ) (decided : List (Item σ × Decision)) (s : Session σ) :
    let ended := renderAllDecided config context strategy decided s
    (∃ outs, ended.1 = .value outs ∧ outs.map (·.key) =
      (decided.filter fun d => !d.2.isHidden).map (·.1.field)) ∧
      ended.2.resolver.resolutions =
        s.resolver.resolutions + (decided.filter (·.2.isShown)).length := by
  obtain ⟨⟨outs, outcome, keys⟩, requests⟩ :=
    renderDecided_spec catches context strategy [] decided s
  obtain ⟨t, rendered⟩ := Outcome.exists_state_of_fst outcome
  rw [rendered] at requests
  intro ended
  simp only [ended, renderAllDecided]
  rw [Run.bind_of_value rendered]
  exact ⟨⟨outs, rfl, keys⟩, requests⟩

/-- Decisions depend on the raw props, the functions and the merged values only. -/
theorem decided_congr (byArguments : config.functions.ByArguments) {config' : Config σ}
    {strategy' : Strategy σ} {items items' : Schema σ} (data : Props) {host host' : σ}
    (functions : config'.functions = config.functions)
    (precedence : config'.options.precedence = config.options.precedence)
    (live : strategy'.liveValues host' = strategy.liveValues host)
    (same : items'.map (fun item => (item.field, item.props)) =
      items.map fun item => (item.field, item.props)) :
    (decided config' items' data strategy' host').map (fun d => (d.1.field, d.2)) =
      (decided config items data strategy host).map fun d => (d.1.field, d.2) := by
  have decide_all (items : Schema σ) (context : Context) (host : σ) :
      (items.map fun item => (item, Decision.ofProps context config.functions host
        item.props)).map (fun d => (d.1.field, d.2)) =
      (items.map fun item => (item.field, item.props)).map fun fp =>
        (fp.1, Decision.ofProps context config.functions host fp.2) := by
    simp only [List.map_map, Function.comp_def]
  have anywhere (context : Context) (props : Props) :
      Decision.ofProps context config.functions host' props =
        Decision.ofProps context config.functions host props :=
    Decision.ofProps_host byArguments context ⟨host', []⟩ host props
  unfold decided
  rw [functions, precedence, live, decide_all, decide_all, same]
  simp only [anywhere]

/-- Visibility is determined by the data, independently of rendering. -/
theorem render_decided_by_data (config : Config σ) (items : Schema σ) (data : Props)
    (strategy : Strategy σ) (s : Session σ) (catches : config.options.catchPanics = true)
    (byArguments : config.functions.ByArguments) :
    let context := Context.merge (strategy.liveValues s.world.host) data config.options.precedence
    let decisions := decided config items data strategy s.world.host
    -- The outputs are those of the items that are not hidden, in their order.
    (∃ outs, (render config items data strategy s).1 = .value outs ∧
      outs.map (·.key) = (decisions.filter fun d => !d.2.isHidden).map (·.1.field)) ∧
    (∀ d ∈ decisions,
      let resolution := (d.1.props.resolve context config.functions ⟨s.world.host, []⟩).1
      (d.2.isHidden = true ↔
        ∃ props, resolution = .value props ∧ Props.isHidden props = true) ∧
      ∀ props, d.2 = .shown props ↔
        resolution = .value props ∧ Props.isHidden props = false) ∧
    -- The shown ones are requested once each.
    (render config items data strategy s).2.resolver.resolutions =
      s.resolver.resolutions + (decisions.filter (·.2.isShown)).length ∧
    -- The pass selects and renders with the props that have been decided on before it.
    render config items data strategy s = renderAllDecided config context strategy decisions s ∧
    -- A hidden item meets no wrapper, component or callback.
    (∀ d ∈ decisions, d.2.isHidden = true → ∀ t : Session σ,
      d.1.build config context strategy t = (do
        Session.onWorld (d.1.props.resolve context config.functions).effects
        Session.record (.fieldHidden d.1.field)
        pure none : Run (Session σ) FormError (Option (Node σ))) t) ∧
    -- Another host with the same functions and live values decides and shows the same.
    ∀ (config' : Config σ) (items' : Schema σ) (strategy' : Strategy σ) (s' : Session σ),
      config'.functions = config.functions →
      config'.options.precedence = config.options.precedence →
      config'.options.catchPanics = true →
      strategy'.liveValues s'.world.host = strategy.liveValues s.world.host →
      items'.map (fun item => (item.field, item.props)) =
        items.map (fun item => (item.field, item.props)) →
      (decided config' items' data strategy' s'.world.host).map (fun d => (d.1.field, d.2)) =
        decisions.map (fun d => (d.1.field, d.2)) ∧
      ∃ outs outs', (render config items data strategy s).1 = .value outs ∧
        (render config' items' data strategy' s').1 = .value outs' ∧
        outs'.map (·.key) = outs.map (·.key) := by
  intro context decisions
  have spec := renderAllDecided_spec catches context strategy decisions s
  rw [← render_eq_decided catches byArguments items data s] at spec
  obtain ⟨⟨outs, outcome, keys⟩, requests⟩ := spec
  refine ⟨⟨outs, outcome, keys⟩, ?_, requests, render_eq_decided catches byArguments items data s,
    ?_, ?_⟩
  · intro d mem
    obtain ⟨item, -, rfl⟩ := List.mem_map.1 mem
    exact ⟨Decision.isHidden_ofProps, fun props => Decision.ofProps_eq_shown⟩
  · intro d mem hidden t
    obtain ⟨item, -, rfl⟩ := List.mem_map.1 mem
    exact Item.build_of_hidden byArguments hidden t
  · intro config' items' strategy' s' functions precedence catches' live same
    have same_decisions := decided_congr byArguments data functions precedence live same
    have byArguments' : config'.functions.ByArguments := by
      rw [functions]
      exact byArguments
    have spec' := renderAllDecided_spec catches'
      (Context.merge (strategy'.liveValues s'.world.host) data config'.options.precedence)
      strategy' (decided config' items' data strategy' s'.world.host) s'
    rw [← render_eq_decided catches' byArguments' items' data s'] at spec'
    obtain ⟨⟨outs', outcome', keys'⟩, -⟩ := spec'
    refine ⟨same_decisions, outs, outs', outcome, outcome', ?_⟩
    have by_field (ds : List (Item σ × Decision)) :
        (ds.filter fun d => !d.2.isHidden).map (·.1.field) =
          ((ds.map fun d => (d.1.field, d.2)).filter fun p => !p.2.isHidden).map (·.1) := by
      rw [List.filter_map, List.map_map]
      rfl
    rw [keys, keys', by_field, same_decisions, ← by_field]

end Form

namespace Sample

open Form

theorem byArguments (catchPanics : Bool) :
    (config catchPanics).functions.ByArguments := by
  intro name f found args s t
  rw [Functions.eq_dynamicCommon_of_initial found]
  rfl

/-- A hidden field whose component would panic has no output and makes no request. -/
theorem render_omits_hidden :
    let items := [name, broken.withProp "hidden" (.bool true)]
    let s : Session MemoryState := ⟨⟨.ofValues .empty, []⟩, .empty⟩
    (∃ outs, (render (config true) items .empty strategy s).1 = .value outs ∧
      outs.map (·.key) = ["name"]) ∧
      (render (config true) items .empty strategy s).2.resolver.resolutions = 1 := by
  intro items s
  obtain ⟨shown, -, requests, -⟩ := render_decided_by_data (config true) items .empty
    strategy s rfl (byArguments true)
  exact ⟨shown, requests⟩

end Sample

end Formwork
