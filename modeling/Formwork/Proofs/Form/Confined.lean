import Formwork.Proofs.Form.Pass
import Formwork.Proofs.Form.Quiet
import Formwork.Proofs.Run.Within

/-!
# Confined components

A component is confined when it reaches a part of the host's state through the handler of its
binding only. With confined wrappers and a confined memo, each item of a pass stays within the frame
of its field.
-/

namespace Formwork

variable {σ γ ε α : Type} {view : σ → γ}

def Handler.Within (F : Frame σ) (h : Handler σ) : Prop :=
  ∀ value, (h value).Within F fun _ => True

def Binding.Within (F : Frame σ) (b : Binding σ) : Prop :=
  ∀ h, b.onChange = some h → Handler.Within F h

/-- Every handler in the node satisfies the frame. -/
def Node.Within (F : Frame σ) (n : Node σ) : Prop :=
  ∀ e ∈ n.elements, ∀ h, e.onChange = some h → Handler.Within F h

/-- Rendering and the handlers of the node satisfy every frame that the binding's handler satisfies.
The viewed part of the state is therefore reached through the handler only. -/
def Component.Confined (view : σ → γ) (c : Component σ) : Prop :=
  ∀ (F : Frame γ) (props : Props) (binding : Binding σ), binding.Within (F.through view) →
    (c.render props binding).Within (F.through view) (Node.Within (F.through view))

/-- Maps confined handles to confined ones and leaves the viewed part unchanged. -/
def Hoc.Confines (view : σ → γ) (hoc : Hoc σ) : Prop :=
  ∀ (F : Frame γ) (inner : Handle σ), inner.toComponent.Confined view →
    (hoc inner).Within (F.through view) fun wrapped => wrapped.toComponent.Confined view

def Reference.Confined (view : σ → γ) : Reference σ → Prop
  | .element node => (prebuilt node.content).Confined view
  | .named _ => True
  | .direct handle => handle.toComponent.Confined view

/-- Components reach the viewed part of the state through their bindings only, and the other host
code leaves it unchanged. -/
structure Config.Confined (view : σ → γ) (config : Config σ) : Prop where
  functions : ∀ name f, config.functions.get? name = some f → ∀ args, (f args).Preserves view
  filters : ∀ m ∈ config.middlewares.content, ∀ filter, m.filter = some filter →
    ∀ props, (filter props).Preserves view
  hocs : ∀ m ∈ config.middlewares.content, ∀ hoc, m.hoc = some hoc → Hoc.Confines view hoc
  registry : ∀ key h, config.registry.content.get? key = some h → h.toComponent.Confined view

def Resolver.Confined (view : σ → γ) (r : Resolver σ) : Prop :=
  ∀ field entry, r.cache.get? field = some entry → entry.handle.toComponent.Confined view

theorem Element.emit_within {F : Frame σ} {e : Element σ}
    (within : ∀ h, e.onChange = some h → Handler.Within F h) (value : Value) :
    (e.emit value).Within F fun _ => True := by
  unfold Element.emit
  split
  · next h some_handler =>
    exact (within h some_handler value).bind fun _ _ => .pure trivial
  · exact .pure trivial

theorem Node.within_placeholder (F : Frame σ) (message : String) :
    (placeholder message : Node σ).Within F := by
  intro e mem h some_handler
  obtain rfl := List.mem_singleton.1 mem
  cases some_handler

namespace Middleware

theorem coerce_within {F : Frame σ} {binding : Binding σ} (within : binding.Within F) :
    Handler.Within F (coerce binding.onChange) := by
  intro value
  unfold coerce
  split
  · next h some_handler => exact within h some_handler _
  · exact .pure trivial

theorem asNumber_confined {inner : Component σ} (confined : inner.Confined view) :
    (asNumber inner).Confined view := by
  intro F props binding within
  refine confined F props _ fun h some_handler => ?_
  cases some_handler
  exact coerce_within within

end Middleware

namespace Pipeline

theorem wrap_confined {hocs : List (Hoc σ)} (confine : ∀ hoc ∈ hocs, Hoc.Confines view hoc)
    (F : Frame γ) {handle : Handle σ} (confined : handle.toComponent.Confined view) :
    (wrap hocs handle).Within (F.through view) fun wrapped =>
      wrapped.toComponent.Confined view := by
  induction hocs with
  | nil => exact .pure confined
  | cons hoc rest ih =>
      refine (ih fun hoc mem => confine hoc (List.mem_cons_of_mem _ mem)).bind ?_
      exact fun inner inner_confined => confine hoc List.mem_cons_self F inner inner_confined

theorem compose_confined {config : Config σ} (confined : config.Confined view) (F : Frame γ)
    {base : Handle σ} (base_confined : base.toComponent.Confined view) (flags : List Bool) :
    ((ofExternal config.middlewares).compose base flags).Within (F.through view) fun wrapped =>
      wrapped.toComponent.Confined view := by
  refine wrap_confined (fun hoc mem => ?_) F base_confined
  obtain ⟨entry, entry_mem, some_hoc⟩ := exists_entry_of_mem_active mem
  rcases mem_entries_ofExternal entry_mem with builtin | external
  · rw [builtin] at some_hoc
    cases some_hoc
    exact fun F inner inner_confined => .pure (Middleware.asNumber_confined inner_confined)
  · exact confined.hocs _ external hoc some_hoc

end Pipeline

theorem Reference.confined_of_resolve {config : Config σ} (confined : config.Confined view)
    {reference : Reference σ} (reference_confined : reference.Confined view) {base : Handle σ}
    (h : reference.resolve config.registry.content = .ok base) :
    base.toComponent.Confined view := by
  unfold Reference.resolve at h
  split at h
  · cases h
    exact reference_confined
  · next key =>
    split at h
    · next handle found =>
      cases h
      exact confined.registry key _ found
    · cases h
  · cases h
    exact reference_confined

namespace Session

abbrev frame (view : σ → γ) (F : Frame γ) : Frame (Session σ) :=
  F.through fun s => view s.world.host

abbrev Confined (view : σ → γ) (s : Session σ) : Prop := s.resolver.Confined view

variable {F : Frame γ} {P : α → Prop}

theorem onWorld_within {m : Run (World σ) ε α} (leaves : m.Preserves fun w => view w.host) :
    (onWorld m).Ensures (frame view F) (Confined view) fun _ => True := by
  have within : m.Within (F.through fun w => view w.host) fun _ => True := .of_preserves leaves
  exact within.onPart (fun _ _ allowed => allowed) fun _ _ confined => confined

theorem record_within (e : Event) :
    (record e : Run (Session σ) ε Unit).Ensures (frame view F) (Confined view) fun _ => True :=
  onWorld_within (World.preserves_record view e)

theorem onHost_within {m : Run σ ε α} (within : m.Within (F.through view) P) :
    (onHost m).Ensures (frame view F) (Confined view) P := by
  have in_world : (World.onHost m).Within (F.through fun w => view w.host) P :=
    within.onPart (fun _ _ allowed => allowed) fun _ _ _ => trivial
  exact in_world.onPart (fun _ _ allowed => allowed) fun _ _ confined => confined

end Session

namespace Resolver

theorem Confined.insert {r : Resolver σ} (confined : r.Confined view) {field : String}
    {entry : MemoEntry σ} (entry_confined : entry.handle.toComponent.Confined view)
    (builds : Nat) :
    Confined view { r with builds := builds, cache := r.cache.insert field entry } := by
  intro other found_entry found
  rw [Record.get?_insert] at found
  split at found
  · cases found
    exact entry_confined
  · exact confined other found_entry found

theorem Confined.retainFields {r : Resolver σ} (confined : r.Confined view)
    (fields : List String) : (r.retainFields fields).Confined view := by
  intro field entry found
  apply confined field entry
  rw [Resolver.retainFields, Record.get?_retain] at found
  split at found
  · exact found
  · cases found

variable {config : Config σ} {reference : Reference σ}

theorem build_confined (confined : config.Confined view) (F : Frame γ)
    (reference_confined : reference.Confined view) (field : String) (key : MemoKey) :
    (build field reference key config.registry (.ofExternal config.middlewares)).Ensures
      (Session.frame view F) (Session.Confined view) fun handle =>
        handle.toComponent.Confined view := by
  refine Run.Ensures.bind (.ofExcept fun base resolved =>
    Reference.confined_of_resolve confined reference_confined resolved) ?_
  intro base base_confined
  have composed := Pipeline.compose_confined confined F base_confined key.active
  refine (Session.onHost_within composed.lift).bind fun wrapped wrapped_confined => ?_
  refine Run.Ensures.bind (P := fun _ => True) (.read fun _ _ => trivial) fun builds _ => ?_
  rw [← Handle.settle_toComponent builds] at wrapped_confined
  refine (Session.record_within _).bind fun _ _ => ?_
  refine Run.Ensures.bind (.modify (fun s _ => F.refl _) fun s kept =>
    kept.insert wrapped_confined _) fun _ _ => ?_
  exact .pure wrapped_confined

theorem resolve_confined (confined : config.Confined view) (F : Frame γ)
    (reference_confined : reference.Confined view) (field : String) (props : Props) :
    (resolve field reference props config.registry (.ofExternal config.middlewares)).Ensures
      (Session.frame view F) (Session.Confined view) fun handle =>
        handle.toComponent.Confined view := by
  unfold resolve
  refine Run.Ensures.bind (.modify (fun s _ => F.refl _) fun s kept => kept) fun _ _ => ?_
  refine (Session.onWorld_within (Pipeline.preserves_select confined.filters props)).bind
    fun flags _ => ?_
  refine Run.Ensures.bind (P := fun known => ∀ handle, known = some handle →
    handle.toComponent.Confined view) (.read fun s kept handle found => ?_) fun known reused => ?_
  · obtain ⟨entry, cached, -, rfl⟩ := exists_entry_of_lookup? found
    exact kept field entry cached
  · cases known with
    | some handle => exact (Session.record_within _).bind fun _ _ => .pure (reused handle rfl)
    | none => exact build_confined confined F reference_confined field _

end Resolver

section Passes

variable {config : Config σ} {state : FormState σ}

theorem Strategy.controller_within {F : Frame γ} {r : FieldRender σ}
    (writes : ∀ value s, F.Allows (view s) (view (state.setValue r.field value s)))
    (confined : r.handle.toComponent.Confined view) (formItemProps : Option Props) :
    ((controller state).render r formItemProps).Within (F.through view)
      (Node.Within (F.through view)) := by
  refine Run.Ensures.bind (P := Binding.Within (F.through view)) (.read fun s _ h some_handler => ?_)
    fun binding within => (confined F r.props binding within).mapError _
  cases some_handler
  exact fun value => .modify (fun s _ => writes value s) fun _ _ => trivial

theorem Item.build_within (confined : config.Confined view) {F : Frame γ} {item : Item σ}
    (reference_confined : item.reference.Confined view)
    (writes : ∀ value s, F.Allows (view s) (view (state.setValue item.field value s)))
    (context : Context) :
    (item.build config context (.controller state)).Ensures (Session.frame view F)
      (Session.Confined view) fun shown => ∀ node, shown = some node →
        node.Within (F.through view) := by
  unfold Item.build
  refine (Session.onWorld_within (Props.preserves_resolve confined.functions context _)).bind
    fun props _ => ?_
  split
  · exact (Session.record_within _).bind fun _ _ => .pure nofun
  · refine (Resolver.resolve_confined confined F reference_confined _ props).bind
      fun handle handle_confined => ?_
    have rendered := Strategy.controller_within (r := ⟨item.field, handle, props⟩) writes
      handle_confined item.formItemProps
    refine (Session.onHost_within rendered).bind fun node within => .pure ?_
    rintro _ ⟨⟩
    exact within

theorem isolate_within {F : Frame γ} {P : α → Prop} (field : String) (catchPanics : Bool)
    {m : Run (Session σ) FormError α}
    (h : m.Ensures (Session.frame view F) (Session.Confined view) P) :
    (isolate field catchPanics m).Ensures (Session.frame view F) (Session.Confined view)
      fun result => ∀ a, result = .ok a → P a := by
  have guarded : Run.Ensures (Session.frame view F) (Session.Confined view) P
      (if catchPanics then m.catchPanic fun p => .panicked p.text else m) := by
    split
    · exact h.catchPanic _
    · exact h
  refine guarded.attempt.bind fun result promised => ?_
  cases result with
  | ok a =>
      refine .pure ?_
      rintro _ ⟨⟩
      exact promised a rfl
  | error source => exact (Session.record_within _).bind fun _ _ => .pure nofun

namespace Form

/-- The handlers of each output satisfy the frame of its key. -/
def OutputsWithin (view : σ → γ) (F : String → Frame γ) (outs : List (FieldOutput σ)) : Prop :=
  ∀ o ∈ outs, o.node.Within ((F o.key).through view)

variable {F : String → Frame γ}

theorem outputs_within (config : Config σ) {field : String}
    {result : Except FieldError (Option (Node σ))}
    (within : ∀ shown, result = .ok shown → ∀ node, shown = some node →
      node.Within ((F field).through view)) :
    OutputsWithin view F (outputs config field result) := by
  intro o mem
  rcases result with e | _ | node
  · obtain rfl := List.mem_singleton.1 mem
    exact Node.within_placeholder _ _
  · cases mem
  · obtain rfl := List.mem_singleton.1 mem
    exact within _ rfl node rfl

/-- The items of a pass form a chain, each within the frame of its field. -/
theorem renderItems_within (confined : config.Confined view)
    (writes : ∀ field value s, (F field).Allows (view s) (view (state.setValue field value s)))
    (context : Context) {items : Schema σ}
    (references : ∀ item ∈ items, item.reference.Confined view) (seen : List String)
    (s : Session σ) (kept : s.Confined view) :
    let ended := renderItems config context (.controller state) seen items s
    Frame.Chain F (items.map (·.field)) (view s.world.host) (view ended.2.world.host) ∧
      ended.2.Confined view ∧ ∀ outs, ended.1 = .value outs → OutputsWithin view F outs := by
  induction items generalizing seen s with
  | nil =>
      refine ⟨.nil _, kept, ?_⟩
      rintro _ ⟨⟩
      exact nofun
  | cons item rest ih =>
      obtain ⟨s', noted, same_host, same_memo⟩ :=
        noteRepeated_eq (ε := Empty) item.field (seen.contains item.field) s
      rw [← same_host]
      have built := Item.build_within confined (references item List.mem_cons_self)
        (writes item.field) context
      have here := isolate_within item.field config.options.catchPanics built s'
        (by rw [Session.Confined, same_memo]; exact kept)
      intro ended
      simp only [ended]
      rw [renderItems_cons, Run.bind_of_value noted, Run.bind_apply]
      generalize isolate item.field config.options.catchPanics _ s' = x at here
      rcases x with ⟨result | e | p, t⟩
      · obtain ⟨allowed, t_kept, promised⟩ := here
        have later := ih (fun item mem => references item (List.mem_cons_of_mem _ mem))
          (item.field :: seen) t t_kept
        dsimp only
        rw [Run.bind_apply]
        generalize renderItems config context _ (item.field :: seen) rest t = y at later
        rcases y with ⟨outs | e | p, u⟩
        · refine ⟨.cons allowed later.1, later.2.1, ?_⟩
          rintro _ ⟨⟩ o mem
          rcases List.mem_append.1 mem with mem | mem
          · exact outputs_within config (promised result rfl) o mem
          · exact later.2.2 outs rfl o mem
        · exact e.elim
        · exact ⟨.cons allowed later.1, later.2.1, nofun⟩
      · exact e.elim
      · exact ⟨.cons here.1 (.refl F _ _), here.2.1, nofun⟩

/-- A pass over confined components forms a chain over the items, however it ends; its outputs stay
within their fields, and the memo holds confined components. -/
theorem render_within (confined : config.Confined view)
    (writes : ∀ field value s, (F field).Allows (view s) (view (state.setValue field value s)))
    {items : Schema σ} (references : ∀ item ∈ items, item.reference.Confined view) (data : Props)
    (s : Session σ) (kept : s.Confined view) :
    let ended := render config items data (.controller state) s
    Frame.Chain F (items.map (·.field)) (view s.world.host) (view ended.2.world.host) ∧
      ended.2.Confined view ∧ ∀ outs, ended.1 = .value outs → OutputsWithin view F outs := by
  intro ended
  simp only [ended, render]
  rw [Run.read_bind_apply, Run.bind_apply]
  have rendered := renderItems_within confined writes
    (Context.merge ((Strategy.controller state).liveValues s.world.host) data
      config.options.precedence) references [] s kept
  generalize renderItems config _ _ [] items s = x at rendered
  rcases x with ⟨outs | e | p, t⟩
  · obtain ⟨chain, t_kept, within⟩ := rendered
    refine ⟨chain, t_kept.retainFields _, ?_⟩
    rintro _ ⟨⟩
    exact within outs rfl
  · exact e.elim
  · exact ⟨rendered.1, rendered.2.1, nofun⟩

end Form

end Passes

end Formwork
