import Formwork.Form.Renderer

/-!
# Fields bound by the host

Rendering over a form state equals rendering with the callback `hostBound`, which binds each field
to the state, over the live values merged with the data.
-/

namespace Formwork

variable {α σ : Type}

namespace Strategy

/-- The callback of a host that binds each field to the form state and returns the error of its
rendering unchanged. -/
def hostBound (state : FormState σ) : Strategy σ :=
  .callback fun item => do
    let field := item.fieldRender.field
    let binding : Binding σ ← .read fun s =>
      { name := field
        value := state.value s field
        onChange := some fun value => .modify (state.setValue field value)
        error := state.error s field }
    (item.fieldRender.render binding).mapError .form

theorem mapError_ofHost_form (m : Run σ FormError α) :
    (m.mapError HostError.form).mapError .ofHost = m :=
  (m.mapError_mapError _ _).trans m.mapError_id

theorem hostBound_render (state : FormState σ) (r : FieldRender σ)
    (formItemProps : Option Props) :
    (hostBound state).render r formItemProps = (controller state).render r formItemProps := by
  funext s
  exact congrFun (mapError_ofHost_form (r.render (boundTo state r.field s))) s

end Strategy

theorem Item.build_congr {strategy strategy' : Strategy σ}
    (same : ∀ r formItemProps, strategy.render r formItemProps = strategy'.render r formItemProps)
    (item : Item σ) (config : Config σ) (context : Context) :
    item.build config context strategy = item.build config context strategy' := by
  unfold build
  simp only [same]

namespace Form

theorem renderItems_congr {strategy strategy' : Strategy σ}
    (same : ∀ r formItemProps, strategy.render r formItemProps = strategy'.render r formItemProps)
    (config : Config σ) (context : Context) (seen : List String) (items : Schema σ) :
    renderItems config context strategy seen items =
      renderItems config context strategy' seen items := by
  induction items generalizing seen with
  | nil => rfl
  | cons item rest ih =>
      unfold renderItems
      simp only [Item.build_congr same, ih]

theorem render_congr {config : Config σ} {strategy strategy' : Strategy σ} {data data' : Props}
    {s : Session σ}
    (same : ∀ r formItemProps, strategy.render r formItemProps = strategy'.render r formItemProps)
    (merged : Context.merge (strategy.liveValues s.world.host) data config.options.precedence =
      Context.merge (strategy'.liveValues s.world.host) data' config.options.precedence)
    (items : Schema σ) :
    render config items data strategy s = render config items data' strategy' s := by
  unfold render
  rw [Run.read_bind_apply, Run.read_bind_apply, merged, renderItems_congr same]

end Form

namespace Renderer

/-- A pass over a form state equals the pass with a callback that binds the fields to that
state, over the live values merged beforehand. Form errors are unchanged on their way through a
callback. -/
theorem render_controller_eq_hostBound (items : Schema σ) (data : Props) (state : FormState σ)
    (s : World σ × Renderer σ) :
    render items data (.controller state) s =
      render items (Context.merge (state.values s.1.host) data
        s.2.config.options.precedence).values (.hostBound state) s ∧
    ∀ (callback : FormItem σ → Run σ HostError (Node σ)) (r : FieldRender σ)
      (formItemProps : Option Props) (host host' : σ) (e : FormError),
      callback (.ofFieldRender r formItemProps) host = (.error (.form e), host') →
        (Strategy.callback callback).render r formItemProps host = (.error e, host') := by
  constructor
  · have same : Form.render s.2.config items data (.controller state) ⟨s.1, s.2.resolver⟩ =
        Form.render s.2.config items (Context.merge (state.values s.1.host) data
          s.2.config.options.precedence).values (.hostBound state) ⟨s.1, s.2.resolver⟩ := by
      refine Form.render_congr (fun r _ => (Strategy.hostBound_render state r _).symm) ?_ items
      exact (Context.merge_empty _ _).symm
    simp only [render, run, same]
  · intro callback r formItemProps host host' e failed
    simp only [Strategy.render, Run.mapError, failed]
    rfl

end Renderer

end Formwork
