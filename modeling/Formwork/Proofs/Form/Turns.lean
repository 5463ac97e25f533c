import Formwork.Proofs.Form.AllOrNothing
import Formwork.Proofs.Resolver.Rebuild
import Formwork.Proofs.Run.Preserves

/-!
# Turns

A pass as a sequence of turns, one for each item, each from the session that the previous one
leaves. A turn makes at most one request, which determines its effect on the resolver.
-/

namespace Formwork

variable {σ α : Type}

namespace Form

variable {config : Config σ} {context : Context} {strategy : Strategy σ}

/-- The session in which an item is built, with a warning if the field is repeated. -/
def noted (seen : List String) (field : String) (s : Session σ) : Session σ :=
  if seen.contains field then
    { s with world := { s.world with events := s.world.events ++ [.duplicateField field] } }
  else s

@[simp] theorem noted_resolver (seen : List String) (field : String) (s : Session σ) :
    (noted seen field s).resolver = s.resolver := by
  unfold noted
  split <;> rfl

theorem renderItems_step (seen : List String) (item : Item σ) (rest : Schema σ) (s : Session σ) :
    renderItems config context strategy seen (item :: rest) s = (do
      let result ← isolate item.field config.options.catchPanics
        (item.build config context strategy)
      let more ← renderItems config context strategy (item.field :: seen) rest
      pure (outputs config item.field result ++ more)) (noted seen item.field s) := by
  rw [renderItems_cons, noted]
  split <;> rfl

theorem renderItems_append (xs ys : Schema σ) (seen : List String) :
    renderItems config context strategy seen (xs ++ ys) = (do
      let before ← renderItems config context strategy seen xs
      let behind ← renderItems config context strategy ((xs.map (·.field)).reverse ++ seen) ys
      pure (before ++ behind)) := by
  induction xs generalizing seen with
  | nil => simp [renderItems]
  | cons item rest ih =>
      rw [List.cons_append, renderItems_cons, renderItems_cons]
      simp only [ih, bind_assoc, pure_bind, List.map_cons, List.reverse_cons, List.append_assoc,
        List.singleton_append]

theorem render_fst (items : Schema σ) (data : Props) (s : Session σ) :
    (render config items data strategy s).1 = (renderItems config
      (Context.merge (strategy.liveValues s.world.host) data config.options.precedence) strategy []
        items s).1 := by
  rw [render, Run.read_bind_apply, Run.bind_apply]
  rcases renderItems config _ strategy [] items s with ⟨_ | _ | _, t⟩ <;> rfl

/-- An item of a pass, with the configuration, context, strategy and session of its build. -/
structure Turn (σ : Type) where
  config : Config σ
  context : Context
  strategy : Strategy σ
  item : Item σ
  session : Session σ

namespace Turn

variable (t : Turn σ)

def built : Outcome FormError (Option (Node σ)) × Session σ :=
  t.item.build t.config t.context t.strategy t.session

def request (props : Props) : Request σ :=
  ⟨t.item.field, t.item.reference, props, t.config.registry, .ofExternal t.config.middlewares⟩

/-- The props resolve, ending in `w`, and do not hide the item. -/
def Shows (props : Props) (w : World σ) : Prop :=
  t.item.props.resolve t.context t.config.functions t.session.world = (.value props, w) ∧
    Props.isHidden props = false

/-- The item is visible and its filters have these outcomes. -/
def Selects (flags : List Bool) : Prop :=
  ∃ props w, t.Shows props w ∧
    ((t.request props).pipeline.select props w).1 = .value flags

def Resolves : Prop :=
  ∃ props w handle, t.Shows props w ∧
    ((t.request props).resolve ⟨w, t.session.resolver⟩).1 = .value handle

def builds : Bool := t.session.resolver.builds < t.built.2.resolver.builds

/-- A visible item makes one request, and the resolver is unchanged by its rendering. -/
theorem built_of_shows {t : Turn σ} {props : Props} {w : World σ} (shows : t.Shows props w) :
    t.built.2.resolver = ((t.request props).resolve ⟨w, t.session.resolver⟩).2.resolver := by
  obtain ⟨resolved, visible⟩ := shows
  have in_session : Session.onWorld (t.item.props.resolve t.context t.config.functions) t.session =
      (.value props, ⟨w, t.session.resolver⟩) := by
    simp only [Session.onWorld, Run.onPart, resolved]
  rw [built, Item.build, Run.bind_of_value in_session, visible]
  exact Run.Preserves.bind_snd (f := Session.resolver) (fun handle =>
    Run.Preserves.bind (fun _ => rfl) fun node => .pure _) _

theorem built_of_not_shows {t : Turn σ} (never : ∀ props w, ¬t.Shows props w) :
    t.built.2.resolver = t.session.resolver ∧ ¬t.Resolves := by
  refine ⟨?_, fun ⟨props, w, _, shows, _⟩ => never props w shows⟩
  rw [built, Item.build, Run.bind_apply]
  rcases resolved : t.item.props.resolve t.context t.config.functions t.session.world with
    ⟨props | e | p, w⟩
  · have hidden : Props.isHidden props = true :=
      Bool.of_not_eq_false fun visible => never props w ⟨resolved, visible⟩
    simp only [Session.onWorld, Run.onPart, resolved, hidden]
    rfl
  · simp only [Session.onWorld, Run.onPart, resolved]
  · simp only [Session.onWorld, Run.onPart, resolved]

theorem Shows.unique {t : Turn σ} {props props' : Props} {w w' : World σ}
    (shows : t.Shows props w) (shows' : t.Shows props' w') : props = props' ∧ w = w' := by
  have same := shows.1.symm.trans shows'.1
  cases same
  exact ⟨rfl, rfl⟩

/-- The possible effects of a turn on the resolver. -/
inductive Leaves (t : Turn σ) : Resolver σ → Prop where
  | idle (unresolved : ¬t.Resolves) : Leaves t t.session.resolver
  | refused (unresolved : ¬t.Resolves) : Leaves t t.session.resolver.counted
  | reused {entry : MemoEntry σ} (resolves : t.Resolves)
      (cached : t.session.resolver.cache.get? t.item.field = some entry) :
      Leaves t t.session.resolver.counted
  | built {flags : List Bool} {handle : Handle σ} (resolves : t.Resolves)
      (selects : t.Selects flags)
      (stale : t.session.resolver.lookup? t.item.field ⟨t.item.reference.id, flags⟩
        t.config.registry.id t.config.middlewares.id = none) :
      Leaves t (t.session.resolver.counted.grown t.item.field
        ⟨⟨t.item.reference.id, flags⟩, t.config.registry.id, t.config.middlewares.id, handle⟩)

theorem leaves (t : Turn σ) : t.Leaves t.built.2.resolver := by
  by_cases visible : ∃ props w, t.Shows props w
  · obtain ⟨props, w, shows⟩ := visible
    rw [built_of_shows shows]
    have comes := (t.request props).resolve_comes ⟨w, t.session.resolver⟩
    generalize ended : ((t.request props).resolve ⟨w, t.session.resolver⟩).1 = outcome,
      ((t.request props).resolve ⟨w, t.session.resolver⟩).2.resolver = memo at comes
    cases comes with
    | refused refusal =>
        -- An answered request of this turn could only be the one that has been refused.
        refine .refused fun ⟨props', w', handle, shows', given⟩ => ?_
        obtain ⟨rfl, rfl⟩ := shows.unique shows'
        rw [ended.symm.trans given] at refusal
        cases refusal
    | reused selected cached built => exact .reused ⟨props, w, _, shows, ended⟩ cached
    | built selected stale =>
        refine .built ⟨props, w, _, shows, ended⟩ ⟨props, w, shows, selected⟩ ?_
        refine Option.eq_none_iff_forall_ne_some.2 fun handle found => ?_
        obtain ⟨entry, cached, built, -⟩ :=
          (Resolver.lookup?_eq_some_iff (r := t.request props)).1 found
        exact stale entry cached built
  · have never (props : Props) (w : World σ) : ¬t.Shows props w :=
      fun shows => visible ⟨props, w, shows⟩
    obtain ⟨same, unresolved⟩ := built_of_not_shows never
    rw [same]
    exact .idle unresolved

end Turn

/-- The turns of a pass, up to a panic that ends it. -/
def turns (config : Config σ) (context : Context) (strategy : Strategy σ) :
    (seen : List String) → Schema σ → Session σ → List (Turn σ)
  | _, [], _ => []
  | seen, item :: rest, s =>
    ⟨config, context, strategy, item, noted seen item.field s⟩ ::
      match isolate item.field config.options.catchPanics (item.build config context strategy)
        (noted seen item.field s) with
      | (.value _, t) => turns config context strategy (item.field :: seen) rest t
      | _ => []

theorem isolate_resolver (field : String) (catchPanics : Bool)
    (m : Run (Session σ) FormError α) (s : Session σ) :
    (isolate field catchPanics m s).2.resolver = (m s).2.resolver := by
  rcases h : m s with ⟨a | e | p, t⟩
  · rw [isolate_of_value h]
  · rw [isolate_of_error h]
  · cases catchPanics
    · rw [isolate_of_escaped h]
    · rw [isolate_of_caught h]

/-- Induction over the turns of a pass, with the resolvers before and after them. -/
theorem turns_induction {R : List (Turn σ) → Resolver σ → Resolver σ → Prop} {items : Schema σ}
    (rest : ∀ memo, R [] memo memo)
    (turn : ∀ (t : Turn σ) later memo, t.config = config → t.item ∈ items →
      R later t.built.2.resolver memo → R (t :: later) t.session.resolver memo)
    (seen : List String) (s : Session σ) :
    R (turns config context strategy seen items s) s.resolver
      (renderItems config context strategy seen items s).2.resolver := by
  induction items generalizing seen s with
  | nil => exact rest _
  | cons item later ih =>
      have later_turn (t : Turn σ) (ts : List (Turn σ)) (memo : Resolver σ)
          (same : t.config = config) (mem : t.item ∈ later) :=
        turn t ts memo same (List.mem_cons_of_mem _ mem)
      rw [renderItems_step, turns, ← noted_resolver seen item.field s]
      refine turn ⟨config, context, strategy, item, noted seen item.field s⟩ _ _ rfl
        List.mem_cons_self ?_
      -- The next turn starts from what the boundary leaves; a panic that escapes ends them all.
      rw [Turn.built, ← isolate_resolver item.field config.options.catchPanics]
      rcases ended : isolate item.field config.options.catchPanics
        (item.build config context strategy) (noted seen item.field s) with ⟨result | e | p, t⟩
      · rw [Run.bind_of_value ended,
          Run.Preserves.bind_snd (f := Session.resolver) (fun more => .pure _)]
        exact ih later_turn _ t
      · exact e.elim
      · rw [Run.bind_of_panic ended]
        exact rest _

theorem mem_turns {seen : List String} {items : Schema σ} {s : Session σ} {t : Turn σ}
    (mem : t ∈ turns config context strategy seen items s) :
    t.config = config ∧ t.item ∈ items := by
  revert t
  refine turns_induction (R := fun ts _ _ => ∀ {t}, t ∈ ts → t.config = config ∧ t.item ∈ items)
    (fun _ _ => nofun) (fun t later _ same item ih u mem => ?_) seen s
  rcases List.mem_cons.1 mem with rfl | behind
  · exact ⟨same, item⟩
  · exact ih behind

end Form

end Formwork
