import Formwork.Proofs.Middleware.Forward
import Formwork.Proofs.Resolver.Rebuild
import Formwork.Proofs.Form.Pass

/-!
# Change values through the resolver

A handle from a build or from the memo is composed by the pipeline from the field's component. An
emitted value therefore passes the active wrappers, the last one first, and in a numeric field the
integer reading, before the binding's handler runs.
-/

namespace Formwork

variable {σ : Type}

namespace Request

/-- The pipeline of the request, in some state, composes this component from the referenced
handle. -/
structure Makes (r : Request σ) (flags : List Bool) (base : Handle σ) (c : Component σ) : Prop where
  resolved : r.reference.resolve r.registry.content = .ok base
  composed : ∃ s made, (r.pipeline.compose base flags s).1 = .value made ∧ made.toComponent = c

/-- Known requests with equal identities have equal references, registries and pipelines. -/
structure Shares (known : Request σ → Prop) : Prop where
  references : ∀ r r', known r → known r' → r.reference.id = r'.reference.id →
    r.reference = r'.reference
  registries : ∀ r r', known r → known r' → r.registry.id = r'.registry.id →
    r.registry = r'.registry
  pipelines : ∀ r r', known r → known r' → r.pipeline.external.id = r'.pipeline.external.id →
    r.pipeline = r'.pipeline

theorem exists_makes_of_build {r : Request σ} {flags : List Bool} {s : Session σ}
    {handle : Handle σ}
    (given : (Resolver.build r.field r.reference ⟨r.reference.id, flags⟩ r.registry r.pipeline s).1 =
      .value handle) : ∃ base, r.Makes flags base handle.toComponent := by
  obtain ⟨base, _, resolved, wrapping⟩ := Run.exists_of_bind_value given
  have is_base := Run.value_of_ofExcept (congrArg Prod.fst resolved)
  obtain ⟨made, _, wrapped, settling⟩ := Run.exists_of_bind_value wrapping
  obtain ⟨builds, _, -, recording⟩ := Run.exists_of_bind_value settling
  obtain ⟨_, _, -, entering⟩ := Run.exists_of_bind_value recording
  obtain ⟨_, _, -, ends⟩ := Run.exists_of_bind_value entering
  cases ends
  rw [Handle.settle_toComponent]
  have composed : ((r.pipeline.compose base flags).lift : Run σ FormError _) _ = (_, _) :=
    congrArg (fun ended => (ended.1, ended.2.world.host)) wrapped
  exact ⟨base, is_base, _, made, Run.value_of_lift (congrArg Prod.fst composed), rfl⟩

end Request

namespace Resolver

/-- Every cached component was composed for a known request that matches its entry. -/
def Made (known : Request σ → Prop) (memo : Resolver σ) : Prop :=
  ∀ field entry, memo.cache.get? field = some entry → ∃ q flags base, known q ∧
    entry.BuiltFor q flags ∧ q.Makes flags base entry.handle.toComponent

variable {known : Request σ → Prop} {s : Session σ}

/-- The step: a known request returns a component composed for a known request with the same
identities, and preserves `Made`. -/
theorem Made.resolve (made : s.resolver.Made known) {r : Request σ} (r_known : known r) :
    (r.resolve s).2.resolver.Made known ∧ ∀ handle, (r.resolve s).1 = .value handle →
      ∃ flags q base, (r.pipeline.select r.props s.world).1 = .value flags ∧ known q ∧
        (r.entry flags handle).BuiltFor q flags ∧ q.Makes flags base handle.toComponent := by
  have comes := r.resolve_comes s
  generalize ended : (r.resolve s).1 = outcome, (r.resolve s).2.resolver = memo at comes
  cases comes with
  | refused refusal =>
      refine ⟨made, ?_⟩
      rintro handle rfl
      cases refusal
  | @reused flags entry selected cached built =>
      refine ⟨made, ?_⟩
      rintro _ ⟨⟩
      obtain ⟨q, flags', base, q_known, built', makes⟩ := made r.field entry cached
      obtain rfl : flags' = flags := built'.active.symm.trans built.active
      refine ⟨flags', q, base, selected, q_known, ?_, makes⟩
      rw [built.eq_entry]
      exact built'
  | @built flags handle selected stale =>
      obtain ⟨w, selected'⟩ := Outcome.exists_state_of_fst selected
      rw [Request.resolve_of_selected selected'] at ended
      split at ended
      · next found =>
        obtain ⟨entry, cached, built, -⟩ := lookup?_eq_some_iff.1 found
        exact (stale entry cached built).elim
      · obtain ⟨base, makes⟩ := Request.exists_makes_of_build ended
        have entered : (r.entry flags handle).BuiltFor r flags := ⟨rfl, rfl, rfl, rfl⟩
        refine ⟨fun field found cached => ?_, ?_⟩
        · rw [grown, Record.get?_insert] at cached
          split at cached
          · cases cached
            exact ⟨r, flags, base, r_known, entered, makes⟩
          · exact made field found cached
        · rintro _ ⟨⟩
          exact ⟨flags, r, base, selected, r_known, entered, makes⟩

theorem Made.perform (made : s.resolver.Made known) {call : Call σ}
    (call_known : ∀ r, call = .resolve r → known r) : (call.perform s).resolver.Made known := by
  cases call with
  | resolve r => exact (made.resolve (call_known r rfl)).1
  | retainFields fields =>
      intro field entry cached
      apply made field entry
      rw [Call.perform, retainFields, Record.get?_retain] at cached
      split at cached
      · exact cached
      · cases cached
  | clear =>
      intro field entry cached
      cases cached
  | host act => exact made

/-- The run: after any calls, every cached component was composed for one of their requests. -/
theorem made_after {calls : List (Call σ)} (calls_known : ∀ r, .resolve r ∈ calls → known r)
    (made : s.resolver.Made known) : (after calls s).resolver.Made known := by
  induction calls generalizing s with
  | nil => exact made
  | cons call rest ih =>
      refine ih (fun r mem => calls_known r (List.mem_cons_of_mem _ mem)) (made.perform ?_)
      rintro r rfl
      exact calls_known r List.mem_cons_self

/-- Change values are forwarded through the wrappers. After any calls, the returned handle with a
binding's handler `h` equals the composition around a component whose handler calls `h` once, with
the value transformed by the active wrappers, the last one first, and finally read as an integer in
a numeric field. In a numeric field `h` receives null and whole numbers only, whatever the wrappers
do. -/
theorem resolve_forwards (calls : List (Call σ)) (w : World σ) (r : Request σ)
    (handle : Handle σ)
    (shares : Request.Shares fun q => Call.resolve q ∈ calls ++ [.resolve r])
    (builtin : r.pipeline = .ofExternal r.pipeline.external)
    (given : (r.resolve (after calls ⟨w, .empty⟩)).1 = .value handle) :
    ∃ base active,
      r.reference.resolve r.registry.content = .ok base ∧
      (r.pipeline.select r.props (after calls ⟨w, .empty⟩).world).1 =
        .value (r.props.isNumeric :: active) ∧
      (∀ ts : List (Value → Value),
        List.Forall₂ (fun t m => ∀ hoc, Middleware.hoc m = some hoc → hoc.Forwards t) ts
            r.pipeline.external.content →
          ∀ h : Handler σ, ∃ s made,
            (r.pipeline.compose (base.holding fun v =>
              h (if r.props.isNumeric then (passOn (flagged ts active) v).leadingInteger
                else passOn (flagged ts active) v))
              (r.props.isNumeric :: active) s).1 = .value made ∧
            handle.toComponent.holding h = made.toComponent.holding h) ∧
      (r.props.isNumeric = true → ∀ h h' : Handler σ,
        (∀ v : Value, v.IsWhole → h v = h' v) →
          handle.toComponent.holding h = handle.toComponent.holding h') := by
  have made_before : (after calls ⟨w, .empty⟩).resolver.Made
      fun q => Call.resolve q ∈ calls ++ [.resolve r] :=
    made_after (fun q mem => List.mem_append_left _ mem) nofun
  have r_known : Call.resolve r ∈ calls ++ [.resolve r] := List.mem_append_right _ List.mem_cons_self
  obtain ⟨flags, q, base, selected, q_known, entry, resolved, s, made, composed, is_made⟩ :=
    (made_before.resolve r_known).2 handle given
  rw [← shares.references r q r_known q_known entry.reference,
    ← shares.registries r q r_known q_known entry.registry] at resolved
  rw [← shares.pipelines r q r_known q_known entry.middlewares] at composed
  rw [builtin] at selected composed
  obtain ⟨⟨active, rfl⟩, complete⟩ := Pipeline.select_ofExternal selected
  refine ⟨base, active, resolved, ?_, ?_, ?_⟩
  · rw [builtin]
    exact selected
  · intro ts forward h
    have forwards := Pipeline.active_forwards forward complete r.props.isNumeric active
    obtain ⟨made', composed', same⟩ := Pipeline.exists_compose_holding forwards composed h
    have handler : (fun v => h (passOn
        ((if r.props.isNumeric then [Value.leadingInteger] else []) ++ flagged ts active) v)) =
        fun v => h (if r.props.isNumeric then (passOn (flagged ts active) v).leadingInteger
          else passOn (flagged ts active) v) := by
      cases r.props.isNumeric <;> rfl
    rw [handler, ← builtin] at composed'
    rw [← is_made]
    exact ⟨s, made', composed', congrArg Handle.toComponent same⟩
  · intro numeric h h' same
    rw [numeric] at composed
    obtain ⟨inner, _, _, outermost⟩ := Run.exists_of_bind_value composed
    cases outermost
    rw [← is_made]
    exact Middleware.holding_asNumber_congr _ same

end Resolver

namespace Sample

open Resolver

def forwarding (t : Value → Value) (inner : Component MemoryState) : Component MemoryState where
  name := "forwarding(" ++ inner.name ++ ")"
  render props binding :=
    inner.render props
      { binding with onChange := binding.onChange.map fun h value => h (t value) }

def forward (t : Value → Value) : Middleware MemoryState :=
  .always "forward" fun inner => pure (.ofComponent (forwarding t inner.toComponent))

def asEvent (v : Value) : Value := .object [("target", .object [("value", v)])]

def withUnit : Value → Value
  | .string s => .string (s ++ " km")
  | v => v

/-- A text box that asks for numbers, inside two wrappers. -/
def distance : Request MemoryState where
  field := "distance"
  reference := .named "Input"
  props := .ofList [("valueAsNumber", .bool true)]
  registry := ⟨0, .ofList [("Input", ⟨input, .shared 0⟩)]⟩
  pipeline := .ofExternal ⟨1, [forward asEvent, forward withUnit]⟩

theorem offers_input : input.Offers "input" := by
  rintro props binding s _ _ ⟨⟩
  exact ⟨_, rfl, rfl⟩

/-- An emitted text gets its unit, becomes an event and is read as an integer; the binding's handler
runs once on the result. -/
theorem resolve_forwards_distance :
    ∃ handle, (distance.resolve (after [] ⟨⟨.ofValues .empty, []⟩, .empty⟩)).1 = .value handle ∧
      ∀ (h : Handler MemoryState) (props : Props) (binding : Binding MemoryState),
        ∃ node, (handle.toComponent.holding h).render props binding = pure node ∧
          ∃ e, node.find? "input" = some e ∧
            ∀ v, e.emit v = (do h (asEvent (withUnit v)).leadingInteger; pure true) := by
  have shares : Request.Shares fun q => Call.resolve q ∈ [] ++ [Call.resolve distance] := by
    have one (q : Request MemoryState) (known : Call.resolve q ∈ [] ++ [Call.resolve distance]) :
        q = distance := Call.resolve.inj (List.mem_singleton.1 known)
    constructor
    all_goals
      intro q q' known known' _
      rw [one q known, one q' known']
  have forwards (t : Value → Value) (hoc : Hoc MemoryState) (some_hoc : (forward t).hoc = some hoc) :
      hoc.Forwards t := by
    cases some_hoc
    exact fun inner h => .pure rfl
  refine ⟨_, rfl, fun h props binding => ?_⟩
  obtain ⟨base, active, resolved, selected, each, -⟩ :=
    resolve_forwards [] ⟨.ofValues .empty, []⟩ distance _ shares rfl rfl
  cases resolved
  cases selected
  obtain ⟨_, made, composed, same⟩ :=
    each [asEvent, withUnit] (.cons (forwards _) (.cons (forwards _) .nil)) h
  cases composed
  rw [same]
  refine ⟨_, rfl, ?_⟩
  exact Component.emit_holding offers_input (s := .ofValues .empty) rfl

end Sample

end Formwork
