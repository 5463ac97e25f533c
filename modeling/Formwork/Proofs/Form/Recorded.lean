import Formwork.Proofs.Form.Catching
import Formwork.Proofs.Form.Retention
import Formwork.Proofs.Middleware.Select
import Formwork.Proofs.Run.Within

/-!
# The log of a pass

Building an item records routine events only. Failures are recorded at the item's boundary and
repeated fields before its turn, each exactly once and in the order of the items.
-/

namespace Formwork

variable {σ ε α : Type}

/-- Events of one kind are appended, and nothing else changes. -/
def Frame.adding (kind : Event → Prop) : Frame (List Event) where
  Allows before after := ∃ added, after = before ++ added ∧ ∀ e ∈ added, kind e
  refl before := ⟨[], (List.append_nil before).symm, nofun⟩
  trans := by
    rintro before _ _ ⟨added, rfl, kinds⟩ ⟨more, rfl, more_kinds⟩
    exact ⟨added ++ more, List.append_assoc _ _ _, List.forall_mem_append.2 ⟨kinds, more_kinds⟩⟩

namespace Event

def repeated? : Event → Option String
  | .duplicateField field => some field
  | _ => none

/-- An event that reports no error and notes no repeated field. -/
structure Routine (e : Event) : Prop where
  no_error : e.level ≠ .error
  no_repetition : e.repeated? = none

theorem Routine.of_debug {e : Event} (debug : e.level = .debug) : e.Routine := by
  refine ⟨by simp [debug], ?_⟩
  cases e with
  | duplicateField => cases debug
  | _ => rfl

theorem routine_malformedMarker (text : String) : (malformedMarker text).Routine :=
  ⟨by simp [level], rfl⟩

end Event

/-! ## Building an item -/

namespace World

abbrev routine : Frame (World σ) := (Frame.adding Event.Routine).through World.events

theorem record_routine {e : Event} (is_routine : e.Routine) :
    (record e : Run (World σ) ε Unit).Within routine fun _ => True :=
  .modify (fun _ _ => ⟨[e], rfl, List.forall_mem_singleton.2 is_routine⟩) fun _ _ => trivial

theorem onHost_routine (m : Run σ ε α) :
    (onHost m : Run (World σ) ε α).Within routine fun _ => True :=
  .of_preserves fun _ => rfl

end World

section Resolution

variable (context : Context) (functions : Functions σ)

theorem Marker.resolve_routine (text : String) :
    (Marker.resolve text context functions).Within World.routine fun _ => True := by
  unfold Marker.resolve
  split
  · exact World.onHost_routine _
  · exact (World.record_routine (Event.routine_malformedMarker text)).bind fun _ _ => .pure trivial

theorem PropSource.resolve_routine (source : PropSource) :
    (source.resolve context functions).Within World.routine fun _ => True := by
  cases source with
  | literal value => exact .pure trivial
  | marker text => exact Marker.resolve_routine context functions text
  | expression text => exact .ofExcept fun _ _ => trivial
  | data key => exact .pure trivial

theorem Props.resolveEntries_routine (entries : Entries Value) :
    (Props.resolveEntries context functions entries).Within World.routine fun _ => True := by
  induction entries with
  | nil => exact .pure trivial
  | cons entry rest ih =>
      refine (PropSource.resolve_routine context functions _).bind fun value _ => ?_
      refine (World.record_routine (.of_debug rfl)).bind fun _ _ => ?_
      exact ih.bind fun _ _ => .pure trivial

theorem Props.resolve_routine (props : Props) :
    (props.resolve context functions).Within World.routine fun _ => True :=
  (resolveEntries_routine context functions props.entries).bind fun _ _ => .pure trivial

end Resolution

namespace Pipeline

variable {p : Pipeline σ}

theorem FirstIncomplete.external {m : Middleware σ} {builtin : Bool}
    (complete : ∀ m ∈ p.builtin, m.IsComplete) (h : p.FirstIncomplete m builtin) :
    builtin = false := by
  obtain ⟨before, after, split, -, incomplete, place⟩ := h
  refine Bool.of_not_eq_true fun is_builtin => incomplete (complete m ?_)
  have among := place.1 is_builtin
  have here : p.middlewares[before.length]? = some m := by simp [split]
  rw [middlewares, List.getElem?_append_left among] at here
  exact List.mem_of_getElem? here

theorem select_routine (complete : ∀ m ∈ p.builtin, m.IsComplete) (props : Props) :
    (p.select props).Within World.routine fun _ => True := by
  unfold select
  rcases p.firstIncomplete_or_complete with ⟨m, builtin, first⟩ | all
  · rw [first.filters?, first.external complete]
    exact Run.Ensures.fail _
  · rw [filters?_of_complete (by rwa [entries_fst])]
    exact World.onHost_routine _

end Pipeline

namespace Session

abbrev routine : Frame (Session σ) := World.routine.through Session.world

theorem onWorld_routine {m : Run (World σ) ε α} (h : m.Within World.routine fun _ => True) :
    (onWorld m).Within routine fun _ => True :=
  h.onPart (fun _ _ allowed => allowed) fun _ _ _ => trivial

theorem record_routine {e : Event} (is_routine : e.Routine) :
    (record e : Run (Session σ) ε Unit).Within routine fun _ => True :=
  onWorld_routine (World.record_routine is_routine)

theorem updateResolver_routine (f : Resolver σ → Resolver σ) :
    (updateResolver f : Run (Session σ) ε Unit).Within routine fun _ => True :=
  .modify (fun s _ => routine.refl s) fun _ _ => trivial

end Session

namespace Resolver

variable {p : Pipeline σ}

theorem build_routine (field : String) (reference : Reference σ) (key : MemoKey)
    (registry : Shared (Registry σ)) (p : Pipeline σ) :
    (build field reference key registry p).Within Session.routine fun _ => True := by
  refine Run.Ensures.bind (P := fun _ => True) (.ofExcept fun _ _ => trivial) fun base _ => ?_
  refine (Session.onWorld_routine (World.onHost_routine _)).bind fun wrapped _ => ?_
  refine Run.Ensures.bind (P := fun _ => True) (.read fun _ _ => trivial) fun builds _ => ?_
  refine (Session.record_routine (.of_debug rfl)).bind fun _ _ => ?_
  exact (Session.updateResolver_routine _).bind fun _ _ => .pure trivial

theorem resolve_routine (complete : ∀ m ∈ p.builtin, m.IsComplete) (field : String)
    (reference : Reference σ) (props : Props) (registry : Shared (Registry σ)) :
    (resolve field reference props registry p).Within Session.routine fun _ => True := by
  unfold resolve
  refine (Session.updateResolver_routine _).bind fun _ _ => ?_
  refine (Session.onWorld_routine (Pipeline.select_routine complete props)).bind fun flags _ => ?_
  refine Run.Ensures.bind (P := fun _ => True) (.read fun _ _ => trivial) fun known _ => ?_
  cases known with
  | some handle => exact (Session.record_routine (.of_debug rfl)).bind fun _ _ => .pure trivial
  | none => exact build_routine _ _ _ _ _

end Resolver

theorem Item.build_routine (item : Item σ) (config : Config σ) (context : Context)
    (strategy : Strategy σ) :
    (item.build config context strategy).Within Session.routine fun _ => True := by
  -- Of the errors only that a built-in middleware is incomplete comes from inside, and none is.
  have complete : ∀ m ∈ Middleware.builtins (σ := σ), m.IsComplete :=
    List.forall_mem_singleton.2 ⟨rfl, rfl⟩
  unfold Item.build
  refine (Session.onWorld_routine (Props.resolve_routine _ _ _)).bind fun props _ => ?_
  split
  · exact (Session.record_routine (.of_debug rfl)).bind fun _ _ => .pure trivial
  · refine (Resolver.resolve_routine complete _ _ _ _).bind fun handle _ => ?_
    exact (Session.onWorld_routine (World.onHost_routine _)).bind fun _ _ => .pure trivial

/-! ## The log of a pass -/

namespace Event

/-- Between the two logs exactly these failures and these repeated fields are recorded, in order. -/
def Tells (failures : List FieldError) (repeated : List String) (before after : List Event) :
    Prop :=
  ∃ recorded, after = before ++ recorded ∧
    recorded.filter (·.level = .error) = failures.map .fieldFailed ∧
      recorded.filterMap Event.repeated? = repeated

namespace Tells

variable {failures failures' : List FieldError} {repeated repeated' : List String}
  {events events' events'' : List Event}

theorem trans (first : Tells failures repeated events events')
    (next : Tells failures' repeated' events' events'') :
    Tells (failures ++ failures') (repeated ++ repeated') events events'' := by
  obtain ⟨recorded, rfl, reported, noted⟩ := first
  obtain ⟨more, rfl, more_reported, more_noted⟩ := next
  refine ⟨recorded ++ more, List.append_assoc _ _ _, ?_, ?_⟩
  · rw [List.filter_append, reported, more_reported, List.map_append]
  · rw [List.filterMap_append, noted, more_noted]

theorem of_routine (allowed : (Frame.adding Routine).Allows events events') :
    Tells [] [] events events' := by
  obtain ⟨recorded, rfl, routine⟩ := allowed
  refine ⟨recorded, rfl, List.filter_eq_nil_iff.2 fun e mem => ?_,
    List.filterMap_eq_nil_iff.2 fun e mem => (routine e mem).no_repetition⟩
  simpa using (routine e mem).no_error

theorem failure (e : FieldError) : Tells [e] [] events (events ++ [.fieldFailed e]) :=
  ⟨[.fieldFailed e], rfl, rfl, rfl⟩

theorem repetition (field : String) :
    Tells [] [field] events (events ++ [.duplicateField field]) :=
  ⟨[.duplicateField field], rfl, rfl, rfl⟩

end Tells

end Event

/-- The fields that have occurred before, in order of repetition. -/
def repeatedFields (fields : List String) : List String :=
  (fields.zipIdx.filter fun e => e.1 ∈ fields.take e.2).map Prod.fst

theorem repeatedFields_snoc (fields : List String) (field : String) :
    repeatedFields (fields ++ [field]) =
      repeatedFields fields ++ if field ∈ fields then [field] else [] := by
  have before : ∀ e ∈ fields.zipIdx, (fields ++ [field]).take e.2 = fields.take e.2 :=
    fun e mem => List.take_append_of_le_length (Nat.le_of_lt (List.snd_lt_of_mem_zipIdx mem))
  rw [repeatedFields, List.zipIdx_append, List.filter_append, List.map_append]
  congr 1
  · exact congrArg _ (List.filter_congr fun e mem => by rw [before e mem])
  · by_cases mem : field ∈ fields <;> simp [mem]

namespace Form

open Event

variable {config : Config σ}

theorem noted_tells (seen : List String) (field : String) (s : Session σ) :
    Tells [] (if field ∈ seen then [field] else []) s.world.events
      (noted seen field s).world.events := by
  by_cases mem : field ∈ seen
  · simpa [noted, mem] using Tells.repetition field
  · simpa [noted, mem] using Tells.of_routine ((Frame.adding Routine).refl s.world.events)

theorem isolate_tells (config : Config σ) (field : String) {m : Run (Session σ) FormError (Option (Node σ))}
    (routine : m.Within Session.routine fun _ => True) (s : Session σ) :
    Tells ((outputs config field ((m s).1.contained field)).filterMap (·.error)) []
      s.world.events (isolate field true m s).2.world.events := by
  have inside : Tells [] [] s.world.events (m s).2.world.events :=
    .of_routine (routine s trivial).1
  rw [isolate_apply]
  cases (m s).1.contained field with
  | ok node =>
      have no_failure : (outputs config field (.ok node)).filterMap (·.error) = [] := by
        cases node <;> rfl
      rw [no_failure]
      exact inside
  | error e => exact inside.trans (.failure e)

/-- A turn records the failure of its item, and a repeated field. -/
theorem turn_tells (catches : config.options.catchPanics = true) (context : Context)
    (strategy : Strategy σ) (seen : List String) (item : Item σ) (s : Session σ) :
    ∃ outs t, renderItems config context strategy seen [item] s = (.value outs, t) ∧
      Tells (outs.filterMap (·.error)) (if item.field ∈ seen then [item.field] else [])
        s.world.events t.world.events := by
  have routine := item.build_routine config context strategy
  have first := noted_tells seen item.field s
  have next := isolate_tells config item.field routine (noted seen item.field s)
  obtain ⟨outcome, -⟩ := isolate_eq item.field (item.build config context strategy)
    (noted seen item.field s)
  obtain ⟨t, isolated⟩ := Outcome.exists_state_of_fst outcome
  rw [isolated] at next
  refine ⟨_, t, ?_, by simpa using first.trans next⟩
  rw [renderItems_step, catches, Run.bind_of_value isolated, renderItems]
  exact congrArg (Outcome.value · , t) (List.append_nil _)

/-- Items record failures and repetitions in order. By induction from the last item, which is a
repetition if its field occurs among all items before it. -/
theorem renderItems_tells (catches : config.options.catchPanics = true) (context : Context)
    (strategy : Strategy σ) (items : Schema σ) (s : Session σ) :
    ∃ outs t, renderItems config context strategy [] items s = (.value outs, t) ∧
      Tells (outs.filterMap (·.error)) (repeatedFields (items.map (·.field)))
        s.world.events t.world.events := by
  induction items using List.reverseRecOn with
  | nil => exact ⟨[], s, rfl, .of_routine ((Frame.adding Routine).refl _)⟩
  | append_singleton items last ih =>
      obtain ⟨outs, t, rendered, before⟩ := ih
      obtain ⟨more, u, rendered_last, here⟩ :=
        turn_tells catches context strategy ((items.map (·.field)).reverse ++ []) last t
      refine ⟨outs ++ more, u, ?_, ?_⟩
      · rw [renderItems_append, Run.bind_of_value rendered, Run.bind_of_value rendered_last]
        rfl
      · rw [List.filterMap_append, List.map_append, List.map_singleton, repeatedFields_snoc]
        simpa using before.trans here

theorem render_tells (catches : config.options.catchPanics = true) (items : Schema σ)
    (data : Props) (strategy : Strategy σ) (s : Session σ) :
    ∃ outs t, render config items data strategy s = (.value outs, t) ∧
      Tells (outs.filterMap (·.error)) (repeatedFields (items.map (·.field)))
        s.world.events t.world.events := by
  obtain ⟨outs, t, rendered, tells⟩ := renderItems_tells catches
    (Context.merge (strategy.liveValues s.world.host) data config.options.precedence) strategy
    items s
  have finished : (Frame.adding Routine).Allows t.world.events
      (t.world.events ++ [.passFinished outs.length items.length]) :=
    ⟨_, rfl, List.forall_mem_singleton.2 (.of_debug rfl)⟩
  have told := tells.trans (.of_routine finished)
  rw [List.append_nil, List.append_nil] at told
  refine ⟨outs, ⟨⟨t.world.host, _⟩, t.resolver.retainFields (items.map (·.field))⟩, ?_, told⟩
  rw [render, Run.read_bind_apply, Run.bind_of_value rendered]
  rfl

end Form

namespace Renderer

/-- Failures are reported exactly once. In every state of form and renderer, a pass that catches
panics returns and only appends to the log. The error records are the failures of its outputs,
one each and in order; and a repeated field is recorded once for each item whose field occurs
before it. -/
theorem failures_reported_once (action : Action σ) (pass : Pass σ) (s : World σ × Renderer σ)
    (is_pass : action.pass? = some pass) (catches : s.2.config.options.catchPanics = true) :
    ∃ outs t recorded, action.perform s = (.value outs, t) ∧
      t.1.events = s.1.events ++ recorded ∧
      recorded.filter (·.level = .error) = (outs.filterMap (·.error)).map .fieldFailed ∧
      recorded.filterMap Event.repeated? = repeatedFields (pass.items.map (·.field)) := by
  obtain ⟨outs, t, rendered, recorded, events, reported, noted⟩ :=
    Form.render_tells catches pass.items pass.data pass.strategy ⟨s.1, s.2.resolver⟩
  refine ⟨outs, (t.world, { s.2 with resolver := t.resolver }), recorded, ?_, events, reported,
    noted⟩
  rw [Action.perform_of_pass is_pass]
  exact Run.lift_eq_value_iff.2 (render_of_form rendered)

end Renderer

namespace Sample

open Renderer

def told (outs : List (FieldOutput MemoryState)) : List (String × Option String) :=
  outs.map fun out => (out.key, out.error.map (·.message))

def toldBy : Outcome SchemaError (List (FieldOutput MemoryState)) → List (String × Option String)
  | .value outs => told outs
  | .error _ => []
  | .panic _ => []

/-- A component that panics twice, and a text box that is hidden and then shown. -/
theorem failures_reported_once_repeated :
    let s : World MemoryState × Renderer MemoryState :=
      (⟨.ofValues .empty, []⟩, ofConfig (config true))
    let action : Action MemoryState :=
      .render [broken, hiddenName, name, broken] .empty strategy
    let failure := "field `broken`: render panicked: corrupted"
    ∃ outs t recorded, action.perform s = (.value outs, t) ∧ t.1.events = recorded ∧
      told outs = [("broken", some failure), ("name", none), ("broken", some failure)] ∧
      (recorded.filter (·.level = .error)).map (·.message) = [failure, failure] ∧
      recorded.filterMap Event.repeated? = ["name", "broken"] := by
  intro s action failure
  obtain ⟨outs, t, recorded, performed, events, reported, noted⟩ :=
    failures_reported_once action ⟨[broken, hiddenName, name, broken], .empty, strategy⟩ s rfl rfl
  have outputs : toldBy (action.perform s).1 =
      [("broken", some failure), ("name", none), ("broken", some failure)] := by
    decide +kernel
  rw [performed, toldBy] at outputs
  refine ⟨outs, t, recorded, performed, events, outputs, ?_, noted.trans (by decide)⟩
  calc (recorded.filter (·.level = .error)).map (·.message)
      = (outs.filterMap (·.error)).map (·.message) := by rw [reported, List.map_map]; rfl
    _ = (told outs).filterMap Prod.snd := by
      rw [told, List.filterMap_map, List.map_filterMap]; rfl
    _ = [failure, failure] := by rw [outputs]; rfl

end Sample

end Formwork
