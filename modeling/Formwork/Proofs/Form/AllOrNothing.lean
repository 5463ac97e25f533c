import Formwork.Proofs.Form.History
import Formwork.Proofs.Schema.Entries

/-!
# All or nothing

A schema given as a value is decoded before any item is rendered. A value that does not decode
changes neither the form state nor the log nor the renderer; one that decodes is rendered as its
items.
-/

namespace Formwork

variable {σ ε α : Type}

namespace Form

variable {config : Config σ}

theorem exists_renderItems_value (catches : config.options.catchPanics = true) (context : Context)
    (strategy : Strategy σ) (seen : List String) (items : Schema σ) (s : Session σ) :
    ∃ outs, (renderItems config context strategy seen items s).1 = .value outs := by
  induction items generalizing seen s with
  | nil => exact ⟨[], rfl⟩
  | cons item rest ih =>
      obtain ⟨s', noted, -⟩ :=
        noteRepeated_eq (ε := Empty) item.field (seen.contains item.field) s
      obtain ⟨outcome, -⟩ := isolate_eq item.field (item.build config context strategy) s'
      obtain ⟨t, isolated⟩ := Outcome.exists_state_of_fst outcome
      obtain ⟨outs, rest_outcome⟩ := ih (item.field :: seen) t
      obtain ⟨u, rendered⟩ := Outcome.exists_state_of_fst rest_outcome
      rw [renderItems_cons, Run.bind_of_value noted, catches, Run.bind_of_value isolated,
        Run.bind_of_value rendered]
      exact ⟨_, rfl⟩

theorem exists_render_value (catches : config.options.catchPanics = true) (items : Schema σ)
    (data : Props) (strategy : Strategy σ) (s : Session σ) :
    ∃ outs, (render config items data strategy s).1 = .value outs := by
  rw [render, Run.read_bind_apply]
  obtain ⟨outs, outcome⟩ := exists_renderItems_value catches
    (Context.merge (strategy.liveValues s.world.host) data config.options.precedence) strategy []
    items s
  obtain ⟨t, rendered⟩ := Outcome.exists_state_of_fst outcome
  exact ⟨outs, by rw [Run.bind_of_value rendered]; rfl⟩

end Form

namespace Renderer

theorem run_lift (pass : Config σ → Run (Session σ) Empty α) :
    run (fun config => ((pass config).lift : Run (Session σ) ε α)) = (run pass).lift := by
  funext s
  simp only [run, Run.lift, Run.mapError]
  rcases pass s.2.config ⟨s.1, s.2.resolver⟩ with ⟨_ | e | _, t⟩
  · rfl
  · exact e.elim
  · rfl

variable {v : Value}

theorem exists_render_value (items : Schema σ) (data : Props) (strategy : Strategy σ)
    (s : World σ × Renderer σ) (catches : s.2.config.options.catchPanics = true) :
    ∃ outs, (render items data strategy s).1 = .value outs :=
  Form.exists_render_value catches items data strategy ⟨s.1, s.2.resolver⟩

end Renderer

namespace Sample

open Renderer

end Sample

end Formwork
