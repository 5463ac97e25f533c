import Formwork.Proofs.Form.Memo
import Formwork.Proofs.Middleware.Select
import Formwork.Proofs.Run.Preserves
import Formwork.Form.Field

/-!
# Quiet hosts

A host is quiet when none of its code writes to the host's state during a pass. Then no stage of
building an item writes.
-/

namespace Formwork

variable {σ γ ε α : Type}

/-- Rendering the handle leaves the host state unchanged, with any binding. -/
def Handle.Quiet (h : Handle σ) : Prop := ∀ props binding, (h.render props binding).Quiet

/-- Maps handles that do not write to handles that do not write. -/
def Hoc.KeepsQuiet (hoc : Hoc σ) : Prop :=
  ∀ inner s wrapped, Handle.Quiet inner → (hoc inner s).1 = .value wrapped → Handle.Quiet wrapped

/-- The callback does not write if its handle does not. -/
def Strategy.Quiet : Strategy σ → Prop
  | .callback render => ∀ item : FormItem σ, Handle.Quiet item.fieldRender.handle →
      (render item).Quiet
  | .controller _ => True

/-- No host code writes to the state during a pass. -/
structure QuietHost (config : Config σ) (items : Schema σ) (strategy : Strategy σ) : Prop where
  functions : ∀ name f, config.functions.get? name = some f → ∀ args, (f args).Quiet
  filters : ∀ m ∈ config.middlewares.content, ∀ filter, m.filter = some filter →
    ∀ props, (filter props).Quiet
  hocs : ∀ m ∈ config.middlewares.content, ∀ hoc, m.hoc = some hoc → Hoc.KeepsQuiet hoc
  registry : ∀ key h, config.registry.content.get? key = some h → Handle.Quiet h
  directs : ∀ item ∈ items, ∀ h, item.reference = .direct h → Handle.Quiet h
  strategy : strategy.Quiet

variable {config : Config σ} {items : Schema σ} {strategy : Strategy σ}

section Resolution

variable {view : σ → γ} {functions : Functions σ}

theorem Functions.preserves_call
    (leaves : ∀ name f, functions.get? name = some f → ∀ args, (f args).Preserves view)
    (name : String) (args : List Value) : (functions.call name args).Preserves view := by
  unfold Functions.call
  split
  · next f found => exact (leaves name f found args).mapError _
  · exact .fail _

theorem Marker.preserves_resolve
    (leaves : ∀ name f, functions.get? name = some f → ∀ args, (f args).Preserves view)
    (text : String) (context : Context) :
    (Marker.resolve text context functions).Preserves fun w => view w.host := by
  unfold Marker.resolve
  split
  · exact World.preserves_onHost (Functions.preserves_call leaves _ _)
  · exact (World.preserves_record view _).bind fun _ => .pure _

theorem PropSource.preserves_resolve
    (leaves : ∀ name f, functions.get? name = some f → ∀ args, (f args).Preserves view)
    (context : Context) (source : PropSource) :
    (source.resolve context functions).Preserves fun w => view w.host := by
  cases source with
  | literal value => exact .pure _
  | marker text => exact Marker.preserves_resolve leaves text context
  | expression text => exact .ofExcept _
  | data key => exact .pure _

theorem Props.preserves_resolveEntries
    (leaves : ∀ name f, functions.get? name = some f → ∀ args, (f args).Preserves view)
    (context : Context) (entries : Entries Value) :
    (resolveEntries context functions entries).Preserves fun w => view w.host := by
  induction entries with
  | nil => exact .pure _
  | cons entry rest ih =>
      refine (PropSource.preserves_resolve leaves context _).bind fun value => ?_
      exact (World.preserves_record view _).bind fun _ => ih.bind fun _ => .pure _

theorem Props.preserves_resolve
    (leaves : ∀ name f, functions.get? name = some f → ∀ args, (f args).Preserves view)
    (context : Context) (props : Props) :
    (props.resolve context functions).Preserves fun w => view w.host :=
  (preserves_resolveEntries leaves context props.entries).bind fun _ => .pure _

end Resolution

namespace Pipeline

theorem preserves_runFilters {view : σ → γ} {filters : List (Filter σ)}
    (leave : ∀ filter ∈ filters, ∀ props, (filter props).Preserves view) (props : Props) :
    (runFilters props filters).Preserves view := by
  induction filters with
  | nil => exact .pure _
  | cons filter rest ih =>
      refine (leave filter List.mem_cons_self props).bind fun flag => ?_
      exact (ih fun filter mem => leave filter (List.mem_cons_of_mem _ mem)).bind
        fun flags => .pure _

theorem preserves_select {view : σ → γ} {external : Shared (List (Middleware σ))}
    (leave : ∀ m ∈ external.content, ∀ filter, m.filter = some filter →
      ∀ props, (filter props).Preserves view) (props : Props) :
    ((ofExternal external).select props).Preserves fun w => view w.host := by
  rcases firstIncomplete_or_complete (ofExternal external) with ⟨m, builtin, first⟩ | complete
  · intro w
    rw [first.select]
    rfl
  · rw [select_eq_ask complete]
    refine World.preserves_onHost (preserves_runFilters ?_ props).lift
    intro filter mem
    obtain ⟨m, among, has⟩ := List.mem_filterMap.1 mem
    rcases List.mem_cons.1 among with rfl | is_external
    · cases has
      exact fun props => .pure _
    · exact leave m is_external filter has

theorem quiet_compose {p : Pipeline σ} (steady : p.Steady) (base : Handle σ)
    (flags : List Bool) : (p.compose base flags).Quiet := by
  obtain ⟨outcome, composed⟩ := compose_steady steady base flags
  intro s
  rw [composed]

theorem quiet_of_wrap {hocs : List (Hoc σ)} (keep : ∀ hoc ∈ hocs, Hoc.KeepsQuiet hoc)
    {handle wrapped : Handle σ} (quiet : handle.Quiet) {s : σ}
    (h : (wrap hocs handle s).1 = .value wrapped) : wrapped.Quiet := by
  induction hocs generalizing wrapped s with
  | nil =>
      cases h
      exact quiet
  | cons hoc rest ih =>
      rw [wrap, Run.bind_apply] at h
      have inner_quiet := @ih (fun hoc mem => keep hoc (List.mem_cons_of_mem _ mem))
      cases inner : wrap rest handle s with
      | mk outcome t =>
          rw [inner] at h
          cases outcome with
          | value a =>
              have quiet_a := @inner_quiet a s (by rw [inner])
              exact keep hoc List.mem_cons_self a t wrapped quiet_a h
          | error e => exact e.elim
          | panic p => cases h

theorem quiet_of_compose (quiet : QuietHost config items strategy) {base wrapped : Handle σ}
    (base_quiet : base.Quiet) {flags : List Bool} {s : σ}
    (h : ((ofExternal config.middlewares).compose base flags s).1 = .value wrapped) :
    wrapped.Quiet := by
  refine quiet_of_wrap (fun hoc mem => ?_) base_quiet h
  obtain ⟨entry, entry_mem, some_hoc⟩ := exists_entry_of_mem_active mem
  rcases mem_entries_ofExternal entry_mem with builtin | external
  · rw [builtin] at some_hoc
    cases some_hoc
    rintro inner s wrapped inner_quiet made
    cases made
    exact fun props binding => inner_quiet _ _
  · exact quiet.hocs _ external hoc some_hoc

end Pipeline

theorem Reference.quiet_of_resolve (quiet : QuietHost config items strategy) {item : Item σ}
    (mem : item ∈ items) {base : Handle σ}
    (h : item.reference.resolve config.registry.content = .ok base) : base.Quiet := by
  unfold Reference.resolve at h
  split at h
  · cases h
    exact fun props binding => .pure _
  · next key _ =>
    cases found : config.registry.content.get? key with
    | none =>
        rw [found] at h
        cases h
    | some handle =>
        rw [found] at h
        cases h
        exact quiet.registry key _ found
  · next handle is_direct =>
    cases h
    exact quiet.directs item mem _ is_direct

theorem Strategy.Quiet.render (quiet : strategy.Quiet) (r : FieldRender σ)
    (handle_quiet : r.handle.Quiet) (formItemProps : Option Props) :
    (strategy.render r formItemProps).Quiet := by
  cases strategy with
  | callback render => exact (quiet (.ofFieldRender r formItemProps) handle_quiet).mapError _
  | controller state =>
      refine Run.Preserves.bind (.read _) fun binding => ?_
      exact (handle_quiet _ _).mapError _

end Formwork
