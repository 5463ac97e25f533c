import Formwork.Proofs.Form.Turns

/-!
# Catching panics

Passes with and without caught panics agree up to the first panic. There the pass without catching
ends, and the other records the error of the field and continues.
-/

namespace Formwork

variable {σ : Type}

/-- The same configuration with this treatment of panics. -/
def Config.catching (config : Config σ) (catchPanics : Bool) : Config σ :=
  { config with options := { config.options with catchPanics := catchPanics } }

section Boundary

variable {α : Type} {field : String} {m : Run (Session σ) FormError α} {s t : Session σ}

theorem isolate_true_of_value {result : Except FieldError α}
    (ended : isolate field false m s = (.value result, t)) :
    isolate field true m s = (.value result, t) := by
  rcases h : m s with ⟨a | e | p, u⟩
  · rw [isolate_of_value h] at ended ⊢
    exact ended
  · rw [isolate_of_error h] at ended ⊢
    exact ended
  · rw [isolate_of_escaped h] at ended
    cases ended

theorem isolate_eq_panic_iff {p : Panic} :
    isolate field false m s = (.panic p, t) ↔ m s = (.panic p, t) := by
  refine ⟨fun ended => ?_, isolate_of_escaped⟩
  rcases h : m s with ⟨a | e | q, u⟩
  · rw [isolate_of_value h] at ended
    cases ended
  · rw [isolate_of_error h] at ended
    cases ended
  · rw [isolate_of_escaped h] at ended
    cases ended
    rfl

end Boundary

namespace Form

variable {config : Config σ} {context : Context} {strategy : Strategy σ}

/-- Without caught panics, items that return give the same when panics are caught. -/
theorem renderItems_catching {seen : List String} {items : Schema σ} {s t : Session σ}
    {outs : List (FieldOutput σ)}
    (ended : renderItems (config.catching false) context strategy seen items s =
      (.value outs, t)) :
    renderItems (config.catching true) context strategy seen items s = (.value outs, t) := by
  induction items generalizing seen s t outs with
  | nil => exact ended
  | cons item rest ih =>
      rw [renderItems_step, Run.bind_eq_value_iff] at ended ⊢
      obtain ⟨result, u, here, behind⟩ := ended
      obtain ⟨more, v, rendered, together⟩ := Run.bind_eq_value_iff.1 behind
      exact ⟨result, u, isolate_true_of_value here,
        Run.bind_eq_value_iff.2 ⟨more, v, ih rendered, together⟩⟩

/-- The items `before` return `outs`, and then the next item panics. -/
def Escapes (config : Config σ) (context : Context) (strategy : Strategy σ) (seen : List String)
    (s : Session σ) (before : Schema σ) (outs : List (FieldOutput σ)) (item : Item σ) (p : Panic)
    (t : Session σ) : Prop :=
  ∃ u, renderItems (config.catching false) context strategy seen before s = (.value outs, u) ∧
    item.build config context strategy
      (noted ((before.map (·.field)).reverse ++ seen) item.field u) = (.panic p, t)

theorem renderItems_eq_panic_iff {seen : List String} {items : Schema σ} {s t : Session σ}
    {p : Panic} :
    renderItems (config.catching false) context strategy seen items s = (.panic p, t) ↔
      ∃ before item rest outs, items = before ++ item :: rest ∧
        Escapes config context strategy seen s before outs item p t := by
  constructor
  · intro ended
    induction items generalizing seen s with
    | nil => cases ended
    | cons item rest ih =>
        rw [renderItems_step] at ended
        -- The panic is the first item's, or one behind an item that has come to something.
        rcases Run.bind_eq_panic_iff.1 ended with here | ⟨result, u, here, behind⟩
        · exact ⟨[], item, rest, [], rfl, s, rfl, isolate_eq_panic_iff.1 here⟩
        · rcases Run.bind_eq_panic_iff.1 behind with later | ⟨more, v, -, never⟩
          · obtain ⟨before, other, after, outs, rfl, v, rendered, panics⟩ := ih later
            refine ⟨item :: before, other, after, outputs config item.field result ++ outs, rfl, v,
              ?_, by simpa using panics⟩
            rw [renderItems_step, Run.bind_of_value here, Run.bind_of_value rendered]
            rfl
          · cases never
  · rintro ⟨before, item, rest, outs, rfl, u, rendered, panics⟩
    have ends : renderItems (config.catching false) context strategy
        ((before.map (·.field)).reverse ++ seen) (item :: rest) u = (.panic p, t) := by
      rw [renderItems_step]
      exact Run.bind_of_panic (isolate_of_escaped panics)
    rw [renderItems_append, Run.bind_of_value rendered, Run.bind_of_panic ends]

def failed (field : String) (p : Panic) (t : Session σ) : Session σ :=
  { t with world :=
    { t.world with events := t.world.events ++ [.fieldFailed ⟨field, .panicked p.text⟩] } }

/-- With panics caught, the item of the panic gives its placeholder, and the pass continues in the
state at the panic. -/
theorem exists_renderItems_caught {seen : List String} {before : Schema σ} {item : Item σ}
    {outs : List (FieldOutput σ)} {s t : Session σ} {p : Panic}
    (escapes : Escapes config context strategy seen s before outs item p t) (rest : Schema σ) :
    ∃ more v,
      renderItems (config.catching true) context strategy
        (item.field :: ((before.map (·.field)).reverse ++ seen)) rest (failed item.field p t) =
          (.value more, v) ∧
      renderItems (config.catching true) context strategy seen (before ++ item :: rest) s =
        (.value (outs ++ ⟨item.field, .placeholder config.options.placeholder,
          some ⟨item.field, .panicked p.text⟩⟩ :: more), v) := by
  obtain ⟨u, rendered, panics⟩ := escapes
  have caught : isolate item.field true (item.build (config.catching true) context strategy)
      (noted ((before.map (·.field)).reverse ++ seen) item.field u) =
        (.value (.error ⟨item.field, .panicked p.text⟩), failed item.field p t) :=
    isolate_of_caught panics
  have catches : (config.catching true).options.catchPanics = true := rfl
  obtain ⟨more, behind⟩ := exists_renderItems_value catches context strategy
    (item.field :: ((before.map (·.field)).reverse ++ seen)) rest (failed item.field p t)
  obtain ⟨v, later⟩ := Outcome.exists_state_of_fst behind
  have goes_on : renderItems (config.catching true) context strategy
      ((before.map (·.field)).reverse ++ seen) (item :: rest) u =
        (.value (⟨item.field, .placeholder config.options.placeholder,
          some ⟨item.field, .panicked p.text⟩⟩ :: more), v) := by
    rw [renderItems_step]
    exact (Run.bind_of_value caught).trans (Run.bind_of_value later)
  refine ⟨more, v, later, ?_⟩
  rw [renderItems_append, Run.bind_of_value (renderItems_catching rendered),
    Run.bind_of_value goes_on]
  rfl

theorem render_catching {items : Schema σ} {data : Props} {s t : Session σ}
    {outs : List (FieldOutput σ)}
    (ended : render (config.catching false) items data strategy s = (.value outs, t)) :
    render (config.catching true) items data strategy s = (.value outs, t) := by
  rw [render, Run.read_bind_apply] at ended ⊢
  obtain ⟨outs, u, rendered, finished⟩ := Run.bind_eq_value_iff.1 ended
  exact Run.bind_eq_value_iff.2 ⟨outs, u, renderItems_catching rendered, finished⟩

theorem render_eq_panic_iff {items : Schema σ} {data : Props} {s t : Session σ} {p : Panic} :
    render config items data strategy s = (.panic p, t) ↔
      renderItems config (Context.merge (strategy.liveValues s.world.host) data
        config.options.precedence) strategy [] items s = (.panic p, t) := by
  rw [render, Run.read_bind_apply, Run.bind_eq_panic_iff]
  constructor
  · rintro (ended | ⟨outs, u, -, never⟩)
    · exact ended
    · cases never
  · exact .inl

end Form

namespace Renderer

def catching (catchPanics : Bool) (s : World σ × Renderer σ) : World σ × Renderer σ :=
  (s.1, { s.2 with config := s.2.config.catching catchPanics })

theorem render_of_form {items : Schema σ} {data : Props} {strategy : Strategy σ}
    {s : World σ × Renderer σ} {outcome : Outcome Empty (List (FieldOutput σ))} {t : Session σ}
    (ended : Form.render s.2.config items data strategy ⟨s.1, s.2.resolver⟩ = (outcome, t)) :
    render items data strategy s = (outcome, t.world, { s.2 with resolver := t.resolver }) := by
  simp only [render, run, ended]

/-- Catching panics changes nothing else. In every state of form and renderer, a pass that returns
without catching returns the same and leaves the same state when it catches. A pass that panics
without catching does so at some item; the catching pass has the outputs of the items before it, the
placeholder with the panic's text for that item, and continues in the state at the panic. -/
theorem render_catches_panics_only (items : Schema σ) (data : Props) (strategy : Strategy σ)
    (s : World σ × Renderer σ) :
    let context := Context.merge (strategy.liveValues s.1.host) data s.2.config.options.precedence
    let lets_through := render items data strategy (catching false s)
    let catches := render items data strategy (catching true s)
    let Escapes := Form.Escapes s.2.config context strategy [] ⟨s.1, s.2.resolver⟩
    (∀ outs t, lets_through = (.value outs, t) → catches = (.value outs, catching true t)) ∧
    (∀ p, lets_through.1 = .panic p →
      ∃ before item rest outs t, items = before ++ item :: rest ∧ Escapes before outs item p t) ∧
    ∀ before item rest outs p t, items = before ++ item :: rest → Escapes before outs item p t →
      lets_through =
        (.panic p, t.world, { (catching false s).2 with resolver := t.resolver }) ∧
      (render before data strategy (catching false s)).1 = .value outs ∧
      ∃ more, catches.1 = .value (outs ++
          ⟨item.field, .placeholder s.2.config.options.placeholder,
            some ⟨item.field, .panicked p.text⟩⟩ :: more) ∧
        (Form.renderItems (s.2.config.catching true) context strategy
          (item.field :: (before.map (·.field)).reverse) rest
            (Form.failed item.field p t)).1 = .value more := by
  intro context lets_through catches Escapes
  refine ⟨fun outs t ended => ?_, fun p ended => ?_, ?_⟩
  · rcases passed : Form.render (s.2.config.catching false) items data strategy
      ⟨s.1, s.2.resolver⟩ with ⟨outcome, u⟩
    have same := (render_of_form passed).symm.trans ended
    cases same
    exact render_of_form (Form.render_catching passed)
  · rcases passed : Form.render (s.2.config.catching false) items data strategy
      ⟨s.1, s.2.resolver⟩ with ⟨outcome, t⟩
    obtain rfl : outcome = .panic p := (congrArg Prod.fst (render_of_form passed)).symm.trans ended
    obtain ⟨before, item, rest, outs, split, escapes⟩ :=
      Form.renderItems_eq_panic_iff.1 (Form.render_eq_panic_iff.1 passed)
    exact ⟨before, item, rest, outs, t, split, escapes⟩
  · intro before item rest outs p t split escapes
    have cut : Form.render (s.2.config.catching false) items data strategy
        ⟨s.1, s.2.resolver⟩ = (.panic p, t) :=
      Form.render_eq_panic_iff.2
        (Form.renderItems_eq_panic_iff.2 ⟨before, item, rest, outs, split, escapes⟩)
    obtain ⟨u, rendered, -⟩ := id escapes
    obtain ⟨more, v, behind, caught⟩ := Form.exists_renderItems_caught escapes rest
    refine ⟨render_of_form cut, ?_, more, ?_, ?_⟩
    · exact (Form.render_fst before data _).trans (congrArg Prod.fst rendered)
    · subst split
      exact (Form.render_fst _ data _).trans (congrArg Prod.fst caught)
    · rw [List.append_nil] at behind
      exact congrArg Prod.fst behind

end Renderer

namespace Sample

open Renderer

/-- A text box and a component that panics: without catching, the pass ends there, and with it there
is a text box and a placeholder. -/
theorem render_catches_panics_only_broken :
    let s := after history (⟨.ofValues .empty, []⟩, ofConfig (config false))
    let key (out : FieldOutput MemoryState) := out.key
    (render [name, broken] .empty strategy (catching false s)).1 =
      .panic (.message "corrupted") ∧
    (∃ outs more, (render [name] .empty strategy (catching false s)).1 = .value outs ∧
      outs.map key = ["name"] ∧
      (render [name, broken] .empty strategy (catching true s)).1 =
        .value (outs ++ ⟨"broken", .placeholder Options.defaultPlaceholder,
          some ⟨"broken", .panicked "corrupted"⟩⟩ :: more)) ∧
    ∃ outs t, render [name] .empty strategy (catching false s) = (.value outs, t) ∧
      render [name] .empty strategy (catching true s) = (.value outs, catching true t) := by
  intro s key
  obtain ⟨-, -, cut⟩ := render_catches_panics_only [name, broken] .empty strategy s
  obtain ⟨ends, before, more, caught, -⟩ := cut [name] broken [] _ _ _ rfl ⟨_, rfl, rfl⟩
  obtain ⟨same, -, -⟩ := render_catches_panics_only [name] .empty strategy s
  exact ⟨congrArg Prod.fst ends, ⟨_, more, before, rfl, caught⟩, _, _, rfl, same _ _ rfl⟩

end Sample

end Formwork
