import Formwork.Proofs.Middleware.Forward

/-!
# The pipeline as a fold

Application of a pipeline is the right fold over the selected wrappers. It respects concatenation of
middleware lists, and rejecting middlewares have no effect.
-/

namespace Formwork

variable {σ τ α : Type}

theorem flagged_append {xs ys : List α} {flags flags' : List Bool}
    (same : xs.length = flags.length) :
    flagged (xs ++ ys) (flags ++ flags') = flagged xs flags ++ flagged ys flags' := by
  rw [flagged, List.zip_append same, List.filterMap_append]
  rfl

theorem flagged_all_false {xs : List α} {flags : List Bool}
    (none_set : ∀ flag ∈ flags, flag = false) : flagged xs flags = [] := by
  rw [flagged, List.filterMap_eq_nil_iff]
  rintro ⟨x, flag⟩ mem
  rw [none_set flag (List.of_mem_zip mem).2]
  rfl

def Hoc.Returns (hoc : Hoc σ) : Prop := ∀ inner s q t, hoc inner s ≠ (.panic q, t)

/-- Each call of the wrapper appends this mark. -/
def Hoc.Marks (journal : σ → List τ) (hoc : Hoc σ) (mark : τ) : Prop :=
  ∀ inner s, journal (hoc inner s).2 = journal s ++ [mark]

/-- The middleware is complete, and its filter returns false without effects. -/
def Middleware.Rejects (props : Props) (m : Middleware σ) : Prop :=
  m.IsComplete ∧ ∀ filter, m.filter = some filter → ∀ s, filter props s = (.value false, s)

namespace Middleware.Answered

variable {props : Props} {ms ms' : List (Middleware σ)} {flags : List Bool} {s t u : σ}

theorem length_eq (h : Answered props ms flags s t) : flags.length = ms.length :=
  h.gives.length_eq.symm

theorem split (h : Answered props (ms ++ ms') flags s u) :
    ∃ f f' t, flags = f ++ f' ∧ Answered props ms f s t ∧ Answered props ms' f' t u := by
  induction ms generalizing flags s with
  | nil => exact ⟨[], flags, s, rfl, .nil s, h⟩
  | cons m ms ih =>
      cases h with
      | cons has answer rest =>
          obtain ⟨f, f', t, rfl, first, last⟩ := ih rest
          exact ⟨_ :: f, f', t, rfl, .cons has answer first, last⟩

end Middleware.Answered

namespace Pipeline

open Middleware (Answered Answers)

variable {p : Pipeline σ} {props : Props}

/-! ## Wrapping -/

theorem wrap_eq_foldrM (hocs : List (Hoc σ)) (c : Handle σ) :
    wrap hocs c = hocs.foldrM (fun hoc inner => hoc inner) c := by
  induction hocs with
  | nil => rfl
  | cons hoc hocs ih => rw [wrap, ih, List.foldrM_cons]

theorem wrap_returns {hocs : List (Hoc σ)} (returns : ∀ hoc ∈ hocs, hoc.Returns) (c : Handle σ)
    (s : σ) : ∃ made t, wrap hocs c s = (.value made, t) := by
  induction hocs with
  | nil => exact ⟨c, s, rfl⟩
  | cons hoc hocs ih =>
      obtain ⟨first_returns, rest_returns⟩ := List.forall_mem_cons.1 returns
      obtain ⟨inner, t, wrapped⟩ := ih rest_returns
      rw [wrap, Run.bind_of_value wrapped]
      rcases outermost : hoc inner t with ⟨made | e | q, u⟩
      · exact ⟨made, u, rfl⟩
      · exact e.elim
      · exact (first_returns _ _ _ _ outermost).elim

/-- Wrapping calls every wrapper once, the last one first. -/
theorem journal_wrap {journal : σ → List τ} {hocs : List (Hoc σ)} {marks : List τ}
    (mark : List.Forall₂ (Hoc.Marks journal) hocs marks) {c made : Handle σ} {s t : σ}
    (wrapped : wrap hocs c s = (.value made, t)) : journal t = journal s ++ marks.reverse := by
  induction mark generalizing made t with
  | nil =>
      cases wrapped
      exact (List.append_nil _).symm
  | @cons hoc mark hocs marks first rest ih =>
      obtain ⟨inner, u, inside, outermost⟩ := Run.bind_eq_value_iff.1 wrapped
      have here := first inner u
      rw [outermost] at here
      rw [here, ih inside, List.reverse_cons, List.append_assoc]

/-! ## Choosing -/

/-- What a list of middlewares makes of a handle: the right fold of those whose flag is set. -/
def part (ms : List (Middleware σ)) (flags : List Bool) (c : Handle σ) : Run σ Empty (Handle σ) :=
  (chosen ms flags).foldrM (fun hoc inner => hoc inner) c

theorem part_eq_wrap (ms : List (Middleware σ)) (flags : List Bool) (c : Handle σ) :
    part ms flags c = wrap (chosen ms flags) c :=
  (wrap_eq_foldrM _ c).symm

theorem compose_eq_part (p : Pipeline σ) (c : Handle σ) (flags : List Bool) :
    p.compose c flags = part p.middlewares flags c := by
  rw [compose, active_eq_chosen, part_eq_wrap]

theorem part_append {ms ms' : List (Middleware σ)} {flags flags' : List Bool}
    (same : ms.length = flags.length) (c : Handle σ) :
    part (ms ++ ms') (flags ++ flags') c = part ms' flags' c >>= part ms flags := by
  rw [part, chosen, flagged_append same, List.filterMap_append, List.foldrM_append]
  rfl

theorem part_all_false {ms : List (Middleware σ)} {flags : List Bool}
    (none_set : ∀ flag ∈ flags, flag = false) (c : Handle σ) : part ms flags c = pure c := by
  rw [part, chosen, flagged_all_false none_set]
  rfl

theorem map_some_chosen {ms : List (Middleware σ)} (complete : ∀ m ∈ ms, m.IsComplete)
    (flags : List Bool) : (chosen ms flags).map some = (flagged ms flags).map Middleware.hoc := by
  induction ms generalizing flags with
  | nil => rfl
  | cons m ms ih =>
      obtain ⟨first_complete, rest_complete⟩ := List.forall_mem_cons.1 complete
      obtain ⟨hoc, _, has, -⟩ := first_complete.exists_parts
      have rest := ih rest_complete
      rcases flags with _ | ⟨_ | _, flags⟩
      · rfl
      · exact rest flags
      · rw [chosen_cons has, if_pos rfl, List.map_cons, rest flags]
        exact congrArg (· :: _) has.symm

/-- The wrappers of the middlewares that apply; all filters run first. -/
def choose (props : Props) (ms : List (Middleware σ)) : Run σ Empty (List (Hoc σ)) := do
  let flags ← ask props ms
  pure (chosen ms flags)

theorem choose_cons {m : Middleware σ} {hoc : Hoc σ} {filter : Filter σ}
    (has_hoc : m.hoc = some hoc) (has_filter : m.filter = some filter)
    (ms : List (Middleware σ)) :
    choose props (m :: ms) = (do
      let flag ← filter props
      let hocs ← choose props ms
      pure (if flag then hoc :: hocs else hocs)) := by
  simp only [choose, ask_cons has_filter, bind_assoc, pure_bind, chosen_cons has_hoc]

theorem choose_append {ms : List (Middleware σ)} (complete : ∀ m ∈ ms, m.IsComplete)
    (ms' : List (Middleware σ)) :
    choose props (ms ++ ms') = (do
      let hocs ← choose props ms
      let hocs' ← choose props ms'
      pure (hocs ++ hocs')) := by
  induction ms with
  | nil => exact (bind_pure (choose props ms')).symm
  | cons m ms ih =>
      obtain ⟨first_complete, rest_complete⟩ := List.forall_mem_cons.1 complete
      obtain ⟨hoc, filter, has_hoc, has_filter⟩ := first_complete.exists_parts
      rw [List.cons_append, choose_cons has_hoc has_filter, choose_cons has_hoc has_filter,
        ih rest_complete]
      simp only [bind_assoc, pure_bind]
      refine congrArg _ (funext fun flag => ?_)
      cases flag <;> rfl

theorem choose_filter {ms : List (Middleware σ)} (keep : Middleware σ → Bool)
    (complete : ∀ m ∈ ms, m.IsComplete)
    (rejects : ∀ m ∈ ms, keep m = false → m.Rejects props) :
    choose props (ms.filter keep) = choose props ms := by
  induction ms with
  | nil => rfl
  | cons m ms ih =>
      obtain ⟨first_complete, rest_complete⟩ := List.forall_mem_cons.1 complete
      obtain ⟨first_rejects, rest_rejects⟩ := List.forall_mem_cons.1 rejects
      obtain ⟨hoc, filter, has_hoc, has_filter⟩ := first_complete.exists_parts
      have rest := ih rest_complete rest_rejects
      cases kept : keep m with
      | true =>
          rw [List.filter_cons_of_pos kept, choose_cons has_hoc has_filter,
            choose_cons has_hoc has_filter, rest]
      | false =>
          have declines : filter props = pure false :=
            funext ((first_rejects kept).2 filter has_filter)
          have dropped : ¬keep m = true := by simp [kept]
          rw [List.filter_cons_of_neg dropped, choose_cons has_hoc has_filter, declines, rest]
          exact (bind_pure _).symm

theorem apply_eq_choose (complete : ∀ m ∈ p.middlewares, m.IsComplete) (c : Handle σ)
    (props : Props) :
    p.apply c props =
      World.onHost (choose props p.middlewares >>= fun hocs => wrap hocs c).lift := by
  funext w
  rw [apply, select_eq_ask complete, choose, bind_assoc]
  simp only [pure_bind, compose, active_eq_chosen]
  exact congrFun (World.onHost_lift_bind _ _) w

theorem apply_ne_error (complete : ∀ m ∈ p.middlewares, m.IsComplete) (c : Handle σ)
    (props : Props) (w w' : World σ) (e : FormError) : p.apply c props w ≠ (.error e, w') := by
  rw [apply_eq_choose complete, Ne, World.onHost_eq_iff]
  rintro ⟨t, failed, -⟩
  exact Run.lift_ne_error _ _ _ _ failed

/-- After the filters, application is the fold over the selected middlewares. -/
theorem apply_of_answered (complete : ∀ m ∈ p.middlewares, m.IsComplete) {flags : List Bool}
    {w : World σ} {t : σ} (answered : Answered props p.middlewares flags w.host t) (c : Handle σ) :
    p.apply c props w =
      World.onHost (part p.middlewares flags c).lift { w with host := t } := by
  rw [apply, Run.bind_of_value ((select_eq_value_iff complete).2 ⟨t, answered, rfl⟩),
    compose_eq_part]

theorem apply_congr_filter {builtin L L' : List (Middleware σ)} {id id' : Nat}
    (keep : Middleware σ → Bool) (same : L.filter keep = L'.filter keep)
    (complete : ∀ m ∈ builtin ++ L', m.IsComplete)
    (rejects : ∀ m ∈ L ++ L', keep m = false → m.Rejects props) (c : Handle σ) :
    (⟨builtin, ⟨id, L⟩⟩ : Pipeline σ).apply c props =
      (⟨builtin, ⟨id', L'⟩⟩ : Pipeline σ).apply c props := by
  obtain ⟨complete_builtin, complete_right⟩ := List.forall_mem_append.1 complete
  obtain ⟨rejects_left, rejects_right⟩ := List.forall_mem_append.1 rejects
  have complete_left : ∀ m ∈ L, m.IsComplete := by
    intro m mem
    cases kept : keep m with
    | false => exact (rejects_left m mem kept).1
    | true =>
        have among : m ∈ L'.filter keep := same ▸ List.mem_filter.2 ⟨mem, kept⟩
        exact complete_right m (List.mem_filter.1 among).1
  have chosen_alike : choose props L = choose props L' := by
    rw [← choose_filter keep complete_left rejects_left,
      ← choose_filter keep complete_right rejects_right, same]
  rw [apply_eq_choose (List.forall_mem_append.2 ⟨complete_builtin, complete_left⟩),
    apply_eq_choose complete, middlewares, middlewares, choose_append complete_builtin,
    choose_append complete_builtin, chosen_alike]

/-- Application is a right fold that respects concatenation. With complete middlewares it never
fails. After the filters, it applies the part of `B`, then the part of `A`, then the built-in part.
A part calls the wrappers of exactly the middlewares whose filters hold, each once and the last one
first. This equals composing with the selected flags, and is the component itself if no filter
holds. Rejecting middlewares can be added, removed and moved. -/
theorem apply_append (builtin A B : List (Middleware σ)) (id : Nat) (props : Props) (c : Handle σ)
    (w : World σ) (complete : ∀ m ∈ builtin ++ (A ++ B), m.IsComplete) :
    let p : Pipeline σ := ⟨builtin, ⟨id, A ++ B⟩⟩
    (∀ e w', p.apply c props w ≠ (.error e, w')) ∧
    ((∀ m ∈ p.middlewares, m.Answers props) →
      ∃ flags t, Answered props p.middlewares flags w.host t) ∧
    (∀ flags t, Answered props p.middlewares flags w.host t →
      p.select props w = (.value flags, { w with host := t }) ∧
      p.apply c props w = World.onHost (p.compose c flags).lift { w with host := t } ∧
      (∃ f f₁ f₂ u v, flags = f ++ (f₁ ++ f₂) ∧ Answered props builtin f w.host u ∧
        Answered props A f₁ u v ∧ Answered props B f₂ v t ∧
        p.apply c props w =
          World.onHost (part B f₂ c >>= part A f₁ >>= part builtin f).lift { w with host := t }) ∧
      (chosen p.middlewares flags).map some = (flagged p.middlewares flags).map Middleware.hoc ∧
      ((∀ hoc ∈ chosen p.middlewares flags, hoc.Returns) →
        ∃ made w', p.apply c props w = (.value made, w')) ∧
      (∀ (τ : Type) (journal : σ → List τ) (marks : List τ),
        List.Forall₂ (Hoc.Marks journal) (chosen p.middlewares flags) marks →
          ∀ made w', p.apply c props w = (.value made, w') →
            journal w'.host = journal t ++ marks.reverse) ∧
      ((∀ flag ∈ flags, flag = false) → p.apply c props w = (.value c, { w with host := t })) ∧
      ∀ L id' flags', (∀ m ∈ L, m.IsComplete) →
        Answered props (builtin ++ L) flags' w.host t →
        flagged (builtin ++ L) flags' = flagged p.middlewares flags →
          (⟨builtin, ⟨id', L⟩⟩ : Pipeline σ).apply c props w = p.apply c props w) ∧
    ∀ L id' keep, L.filter keep = (A ++ B).filter keep →
      (∀ m ∈ L ++ (A ++ B), keep m = false → m.Rejects props) →
        (⟨builtin, ⟨id', L⟩⟩ : Pipeline σ).apply c props w = p.apply c props w := by
  intro p
  refine ⟨fun e w' => apply_ne_error complete c props w w' e,
    fun answers => Answered.exists_of_answers complete answers w.host, fun flags t answered => ?_,
    fun L id' keep same rejects => congrFun (apply_congr_filter keep same complete rejects c) w⟩
  have folds := apply_of_answered complete answered c
  refine ⟨(select_eq_value_iff complete).2 ⟨t, answered, rfl⟩, ?_, ?_,
    map_some_chosen complete flags, ?_, ?_, ?_, ?_⟩
  · rw [compose_eq_part]
    exact folds
  · obtain ⟨f, _, u, rfl, answered_builtin, answered_external⟩ := answered.split
    obtain ⟨f₁, f₂, v, rfl, answered_A, answered_B⟩ := answered_external.split
    refine ⟨f, f₁, f₂, u, v, rfl, answered_builtin, answered_A, answered_B, ?_⟩
    rw [← part_append answered_A.length_eq.symm, ← part_append answered_builtin.length_eq.symm]
    exact folds
  · intro returns
    obtain ⟨made, u, wrapped⟩ := wrap_returns returns c t
    refine ⟨made, { w with host := u }, ?_⟩
    rw [folds, part_eq_wrap, World.onHost_eq_iff]
    exact ⟨u, Run.lift_eq_value_iff.2 wrapped, rfl⟩
  · intro τ journal marks mark made w' applied
    rw [folds, part_eq_wrap, World.onHost_eq_iff] at applied
    obtain ⟨u, wrapped, rfl⟩ := applied
    exact journal_wrap mark (Run.lift_eq_value_iff.1 wrapped)
  · intro none_set
    rw [folds, part_all_false none_set]
    rfl
  · intro L id' flags' complete_L answered' same
    have complete' : ∀ m ∈ builtin ++ L, m.IsComplete :=
      List.forall_mem_append.2 ⟨(List.forall_mem_append.1 complete).1, complete_L⟩
    rw [apply_of_answered complete' answered' c, folds, part, part, chosen, chosen, ← same]
    rfl

end Pipeline

namespace Sample

def wrapping (name : String) : Middleware (List String) :=
  .always name fun inner calls =>
    (.value (.ofComponent { inner.toComponent with name := name ++ "(" ++ inner.name ++ ")" }),
      calls ++ [name])

def rejecting : Middleware (List String) :=
  { wrapping "rejecting" with filter := some fun _ => pure false }

def plain : Handle (List String) :=
  .ofComponent ⟨"plain", fun props _ => pure (.element "input" props none [])⟩

/-- The rejecting middleware is never called and has no effect in any position. -/
theorem apply_append_rejecting :
    (∃ made, (Pipeline.ofExternal ⟨0, [wrapping "a", rejecting] ++ [wrapping "b"]⟩).apply plain
        .empty ⟨[], []⟩ = (.value made, ⟨["b", "a"], []⟩) ∧ made.name = "a(b(plain))") ∧
      (Pipeline.ofExternal ⟨1, [rejecting, wrapping "a", wrapping "b", rejecting]⟩).apply plain
        .empty ⟨[], []⟩ =
      (Pipeline.ofExternal ⟨0, [wrapping "a", rejecting] ++ [wrapping "b"]⟩).apply plain
        .empty ⟨[], []⟩ := by
  have folds := Pipeline.apply_append Middleware.builtins [wrapping "a", rejecting] [wrapping "b"] 0
    .empty plain ⟨[], []⟩ (by decide)
  constructor
  · have answered : Middleware.Answered .empty
        (Middleware.builtins ++ ([wrapping "a", rejecting] ++ [wrapping "b"]))
        [false, true, false, true] [] [] :=
      .cons rfl rfl (.cons rfl rfl (.cons rfl rfl (.cons rfl rfl (.nil []))))
    exact ⟨_, (folds.2.2.1 _ _ answered).2.1.trans rfl, rfl⟩
  · have rejects : rejecting.Rejects .empty := ⟨by decide, fun _ has _ => by cases has; rfl⟩
    refine folds.2.2.2 _ 1 (fun m => m.name != "rejecting") rfl fun m mem dropped => ?_
    have one_of : m = wrapping "a" ∨ m = wrapping "b" ∨ m = rejecting := by
      simp only [List.cons_append, List.nil_append, List.mem_cons, List.not_mem_nil] at mem
      tauto
    rcases one_of with rfl | rfl | rfl
    · exact absurd dropped (by decide)
    · exact absurd dropped (by decide)
    · exact rejects

end Sample

end Formwork
