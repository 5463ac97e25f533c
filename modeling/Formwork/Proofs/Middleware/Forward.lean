import Mathlib.Data.List.Forall2
import Formwork.Proofs.Middleware.Select
import Formwork.Proofs.Number.Whole

/-!
# Handlers through a pipeline

Each wrapper passes a handler to the component that it wraps. If every wrapper forwards, the
innermost component has the composition of all transformations, the last wrapper's first. The
built-in wrapper comes last and transmits whole numbers and null only.
-/

namespace Formwork

variable {σ α : Type}

/-- The component with a fixed change handler. -/
def Component.holding (c : Component σ) (h : Handler σ) : Component σ :=
  { c with render := fun props binding => c.render props { binding with onChange := some h } }

def Handle.holding (inner : Handle σ) (h : Handler σ) : Handle σ :=
  { inner with toComponent := inner.toComponent.holding h }

/-- The first element with the tag carries the binding's handler. -/
def Component.Offers (c : Component σ) (tag : String) : Prop :=
  ∀ props binding s node t, c.render props binding s = (.value node, t) →
    ∃ e, node.find? tag = some e ∧ e.onChange = binding.onChange

/-- Emission on that element runs the held handler once. -/
theorem Component.emit_holding {c : Component σ} {tag : String} (offers : c.Offers tag)
    {h : Handler σ} {props : Props} {binding : Binding σ} {s t : σ} {node : Node σ}
    (rendered : (c.holding h).render props binding s = (.value node, t)) :
    ∃ e, node.find? tag = some e ∧ ∀ v, e.emit v = (do h v; pure true) := by
  obtain ⟨e, found, has⟩ := offers props _ s node t rendered
  refine ⟨e, found, fun v => ?_⟩
  rw [Element.emit, has]

/-- The wrapped component receives a handler that passes `t v` to the outer one. Rendering is
otherwise unrestricted. -/
def Hoc.Forwards (t : Value → Value) (hoc : Hoc σ) : Prop :=
  ∀ (inner : Handle σ) (h : Handler σ),
    Run.Alike Eq (fun made made' => made.holding h = made'.holding h) (hoc inner)
      (hoc (inner.holding fun v => h (t v)))

/-- The composition of the transformations, the last one applied first. -/
def passOn (ts : List (Value → Value)) (v : Value) : Value := ts.foldr (fun t v => t v) v

def flagged (xs : List α) (flags : List Bool) : List α :=
  (xs.zip flags).filterMap fun (x, flag) => if flag then some x else none

def Props.isNumeric (props : Props) : Bool :=
  match props.get? "valueAsNumber" with
  | some value => value.isTruthy
  | none => false

namespace Middleware

theorem holding_asNumber (inner : Component σ) (h : Handler σ) :
    (asNumber inner).holding h =
      { name := (asNumber inner).name
        render := (inner.holding fun v => h v.leadingInteger).render } := rfl

theorem forwards_asNumber :
    Hoc.Forwards Value.leadingInteger
      (fun inner : Handle σ => pure (.ofComponent (asNumber inner.toComponent))) := by
  intro inner h
  have same : (asNumber inner.toComponent).holding h =
      (asNumber (inner.holding fun v => h v.leadingInteger).toComponent).holding h := by
    rw [holding_asNumber, holding_asNumber]
    rfl
  exact .pure (congrArg Handle.ofComponent same)

theorem holding_asNumber_congr (inner : Component σ) {h h' : Handler σ}
    (same : ∀ v : Value, v.IsWhole → h v = h' v) :
    (asNumber inner).holding h = (asNumber inner).holding h' := by
  have coerced : (fun v : Value => h v.leadingInteger) = fun v => h' v.leadingInteger :=
    funext fun v => same v.leadingInteger v.isWhole_leadingInteger
  rw [holding_asNumber, holding_asNumber, coerced]

end Middleware

namespace Pipeline

/-- By induction from the outermost wrapper: the inner ones receive a handler composed with its
transformation. -/
theorem wrap_forwards {ts : List (Value → Value)} {hocs : List (Hoc σ)}
    (forward : List.Forall₂ Hoc.Forwards ts hocs) (base : Handle σ) (h : Handler σ) :
    Run.Alike Eq (fun made made' => made.holding h = made'.holding h) (wrap hocs base)
      (wrap hocs (base.holding fun v => h (passOn ts v))) := by
  induction forward generalizing h with
  | nil => exact .pure rfl
  | @cons t hoc ts hocs first _ ih =>
      refine (ih fun v => h (t v)).bind fun inner inner' same => ?_
      have here := first inner h
      rw [same] at here
      exact here.join (first inner' h) fun _ _ _ left right => left.trans right.symm

variable {external : Shared (List (Middleware σ))} {props : Props} {flags : List Bool}

def chosen (ms : List (Middleware σ)) (flags : List Bool) : List (Hoc σ) :=
  (flagged ms flags).filterMap Middleware.hoc

theorem chosen_cons {m : Middleware σ} {hoc : Hoc σ} (has : m.hoc = some hoc)
    (ms : List (Middleware σ)) (flag : Bool) (flags : List Bool) :
    chosen (m :: ms) (flag :: flags) =
      if flag then hoc :: chosen ms flags else chosen ms flags := by
  cases flag with
  | false => rfl
  | true => exact List.filterMap_cons_some has

theorem active_eq_chosen (p : Pipeline σ) (flags : List Bool) :
    p.active flags = chosen p.middlewares flags := by
  rw [active, chosen, flagged, List.filterMap_filterMap, ← p.entries_fst, List.zip_map_left,
    List.filterMap_map]
  apply List.filterMap_congr
  intro pair _
  rcases pair with ⟨entry, _ | _⟩ <;> rfl

/-- The built-in filter comes first and depends on the props alone; selection requires complete
middlewares. -/
theorem select_ofExternal {w : World σ}
    (selected : ((ofExternal external).select props w).1 = .value flags) :
    (∃ active, flags = props.isNumeric :: active) ∧ ∀ m ∈ external.content, m.IsComplete := by
  obtain ⟨w', selected⟩ := Outcome.exists_state_of_fst selected
  rcases firstIncomplete_or_complete (ofExternal external) with ⟨m, builtin, first⟩ | complete
  · rw [first.select] at selected
    cases selected
  · obtain ⟨t, answered, -⟩ := (select_eq_value_iff complete).1 selected
    refine ⟨?_, (List.forall_mem_cons.1 complete).2⟩
    cases answered with
    | cons has answer rest =>
        cases has
        cases answer
        exact ⟨_, rfl⟩

theorem chosen_forwards {ts : List (Value → Value)} {ms : List (Middleware σ)}
    (forward : List.Forall₂ (fun t m => ∀ hoc, Middleware.hoc m = some hoc → hoc.Forwards t) ts ms)
    (complete : ∀ m ∈ ms, m.IsComplete) (flags : List Bool) :
    List.Forall₂ Hoc.Forwards (flagged ts flags) (chosen ms flags) := by
  induction forward generalizing flags with
  | nil => exact .nil
  | @cons t m ts ms first rest ih =>
      obtain ⟨first_complete, rest_complete⟩ := List.forall_mem_cons.1 complete
      obtain ⟨hoc, _, has, -⟩ := first_complete.exists_parts
      cases flags with
      | nil => exact .nil
      | cons flag flags =>
          have others := ih rest_complete flags
          rw [chosen_cons has]
          cases flag with
          | false => exact others
          | true => exact .cons (first hoc has) others

theorem active_forwards {ts : List (Value → Value)}
    (forward : List.Forall₂ (fun t m => ∀ hoc, Middleware.hoc m = some hoc → hoc.Forwards t) ts
      external.content)
    (complete : ∀ m ∈ external.content, m.IsComplete) (numeric : Bool) (active : List Bool) :
    List.Forall₂ Hoc.Forwards
      ((if numeric then [Value.leadingInteger] else []) ++ flagged ts active)
      ((ofExternal external).active (numeric :: active)) := by
  have others := chosen_forwards forward complete active
  rw [active_eq_chosen]
  cases numeric with
  | false => exact others
  | true => exact .cons Middleware.forwards_asNumber others

theorem exists_compose_holding {ts : List (Value → Value)} {flags : List Bool} {base made : Handle σ}
    {p : Pipeline σ} (forward : List.Forall₂ Hoc.Forwards ts (p.active flags)) {s : σ}
    (composed : (p.compose base flags s).1 = .value made) (h : Handler σ) :
    ∃ made', (p.compose (base.holding fun v => h (passOn ts v)) flags s).1 = .value made' ∧
      made.holding h = made'.holding h := by
  have alike := (wrap_forwards forward base h s s rfl).1
  rw [compose] at composed
  rw [composed] at alike
  rw [compose]
  generalize (wrap (p.active flags) _ s).1 = outcome at alike
  cases alike with
  | value same => exact ⟨_, rfl, same⟩

end Pipeline

end Formwork
