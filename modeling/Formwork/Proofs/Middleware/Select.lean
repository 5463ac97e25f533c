import Formwork.Proofs.Resolver.Rebuild
import Formwork.Proofs.Run.Alike

/-!
# Selection

A pipeline checks all middlewares before it runs any filter. The first incomplete one is refused;
otherwise the filters run in order, and their answers are the flags.
-/

namespace Formwork

variable {σ τ : Type}

namespace Middleware

variable {props : Props}

def IsComplete (m : Middleware σ) : Prop := m.hoc.isSome ∧ m.filter.isSome

instance (m : Middleware σ) : Decidable m.IsComplete := inferInstanceAs (Decidable (_ ∧ _))

theorem IsComplete.exists_parts {m : Middleware σ} (h : m.IsComplete) :
    ∃ hoc filter, m.hoc = some hoc ∧ m.filter = some filter := by
  obtain ⟨hoc, some_hoc⟩ := Option.isSome_iff_exists.1 h.1
  obtain ⟨filter, some_filter⟩ := Option.isSome_iff_exists.1 h.2
  exact ⟨hoc, filter, some_hoc, some_filter⟩

/-- The filters run once each, in order, with these answers and these states. -/
inductive Answered (props : Props) : List (Middleware σ) → List Bool → σ → σ → Prop where
  | nil (s : σ) : Answered props [] [] s s
  | cons {m : Middleware σ} {filter : Filter σ} {flag : Bool} {ms : List (Middleware σ)}
      {flags : List Bool} {s t u : σ} (has : m.filter = some filter)
      (answer : filter props s = (.value flag, t)) (rest : Answered props ms flags t u) :
      Answered props (m :: ms) (flag :: flags) s u

/-- A filter panics, and those after it do not run. -/
inductive Stopped (props : Props) : List (Middleware σ) → Panic → σ → σ → Prop where
  | here {m : Middleware σ} {filter : Filter σ} {q : Panic} {ms : List (Middleware σ)} {s t : σ}
      (has : m.filter = some filter) (answer : filter props s = (.panic q, t)) :
      Stopped props (m :: ms) q s t
  | later {m : Middleware σ} {filter : Filter σ} {flag : Bool} {q : Panic}
      {ms : List (Middleware σ)} {s t u : σ} (has : m.filter = some filter)
      (answer : filter props s = (.value flag, t)) (rest : Stopped props ms q t u) :
      Stopped props (m :: ms) q s u

def Gives (props : Props) (m : Middleware σ) (flag : Bool) : Prop :=
  ∃ filter s t, m.filter = some filter ∧ filter props s = (.value flag, t)

def Marks (props : Props) (journal : σ → List τ) (m : Middleware σ) (mark : τ) : Prop :=
  ∀ filter, m.filter = some filter → ∀ s, journal (filter props s).2 = journal s ++ [mark]

def Answers (props : Props) (m : Middleware σ) : Prop :=
  ∀ filter, m.filter = some filter → ∀ s q t, filter props s ≠ (.panic q, t)

theorem Answered.gives {ms : List (Middleware σ)} {flags : List Bool} {s t : σ}
    (h : Answered props ms flags s t) : List.Forall₂ (Gives props) ms flags := by
  induction h with
  | nil => exact .nil
  | cons has answer _ ih => exact .cons ⟨_, _, _, has, answer⟩ ih

theorem Answered.journal_eq {ms : List (Middleware σ)} {flags : List Bool} {s t : σ}
    {journal : σ → List τ} {marks : List τ} (h : Answered props ms flags s t)
    (mark : List.Forall₂ (Marks props journal) ms marks) : journal t = journal s ++ marks := by
  induction h generalizing marks with
  | nil =>
      cases mark
      exact (List.append_nil _).symm
  | @cons m filter flag ms flags s t u has answer _ ih =>
      cases mark with
      | cons first rest =>
          have here := first filter has s
          rw [answer] at here
          rw [ih rest, here, List.append_assoc, List.singleton_append]

theorem Answered.exists_of_answers {ms : List (Middleware σ)}
    (complete : ∀ m ∈ ms, m.IsComplete) (answers : ∀ m ∈ ms, m.Answers props) (s : σ) :
    ∃ flags t, Answered props ms flags s t := by
  induction ms generalizing s with
  | nil => exact ⟨[], s, .nil s⟩
  | cons m ms ih =>
      obtain ⟨first_complete, rest_complete⟩ := List.forall_mem_cons.1 complete
      obtain ⟨first_answers, rest_answers⟩ := List.forall_mem_cons.1 answers
      obtain ⟨_, filter, -, has⟩ := first_complete.exists_parts
      rcases answer : filter props s with ⟨flag | e | q, t⟩
      · obtain ⟨flags, u, rest⟩ := ih rest_complete rest_answers t
        exact ⟨flag :: flags, u, .cons has answer rest⟩
      · exact e.elim
      · exact (first_answers filter has s q t answer).elim

end Middleware

namespace Pipeline

open Middleware (Answered Stopped Gives Marks Answers)

variable {p : Pipeline σ} {props : Props} {m : Middleware σ} {builtin : Bool}

def middlewares (p : Pipeline σ) : List (Middleware σ) := p.builtin ++ p.external.content

theorem entries_fst (p : Pipeline σ) : p.entries.map Prod.fst = p.middlewares := by
  simp [entries, middlewares, Function.comp_def]

/-- The first middleware with a missing part, and whether it is built in. -/
def FirstIncomplete (p : Pipeline σ) (m : Middleware σ) (builtin : Bool) : Prop :=
  ∃ before after, p.middlewares = before ++ m :: after ∧ (∀ other ∈ before, other.IsComplete) ∧
    ¬m.IsComplete ∧ (builtin = true ↔ before.length < p.builtin.length)

theorem exists_firstIncomplete (incomplete : ∃ m ∈ p.middlewares, ¬m.IsComplete) :
    ∃ m builtin, p.FirstIncomplete m builtin := by
  have lacking : ∃ m ∈ p.middlewares, decide (¬m.IsComplete) = true := by simpa using incomplete
  obtain ⟨m, found⟩ := Option.isSome_iff_exists.1 (List.find?_isSome.2 lacking)
  obtain ⟨lacks, before, after, split, complete⟩ := List.find?_eq_some_iff_append.1 found
  refine ⟨m, before.length < p.builtin.length, before, after, split, ?_, ?_, decide_eq_true_iff⟩
  · simpa using complete
  · simpa using lacks

theorem firstIncomplete_or_complete (p : Pipeline σ) :
    (∃ m builtin, p.FirstIncomplete m builtin) ∨ ∀ m ∈ p.middlewares, m.IsComplete := by
  by_cases incomplete : ∃ m ∈ p.middlewares, ¬m.IsComplete
  · exact .inl (exists_firstIncomplete incomplete)
  · exact .inr (by simpa using incomplete)

theorem entries_snd {i : Nat} {entry : Middleware σ × Bool} (h : p.entries[i]? = some entry) :
    entry.2 = true ↔ i < p.builtin.length := by
  rw [entries, List.getElem?_append] at h
  split at h
  · next among =>
    obtain ⟨m, -, rfl⟩ := List.mem_map.1 (List.mem_of_getElem? h)
    exact ⟨fun _ => by simpa using among, fun _ => rfl⟩
  · next behind =>
    obtain ⟨m, -, rfl⟩ := List.mem_map.1 (List.mem_of_getElem? h)
    exact ⟨nofun, fun among => (behind (by simpa using among)).elim⟩

theorem filters?_of_incomplete {before after : List (Middleware σ × Bool)}
    {entry : Middleware σ × Bool} (complete : ∀ other ∈ before, other.1.IsComplete)
    (incomplete : ¬entry.1.IsComplete) :
    filters? (before ++ entry :: after) = .error entry := by
  induction before with
  | nil =>
      obtain ⟨m, builtin⟩ := entry
      rw [List.nil_append, filters?]
      split
      · next hoc filter has_hoc has_filter =>
        exact (incomplete ⟨by simp [has_hoc], by simp [has_filter]⟩).elim
      · rfl
  | cons first before ih =>
      obtain ⟨first_complete, rest_complete⟩ := List.forall_mem_cons.1 complete
      obtain ⟨hoc, filter, has_hoc, has_filter⟩ := first_complete.exists_parts
      rw [List.cons_append, filters?, has_hoc, has_filter, ih rest_complete]
      rfl

theorem FirstIncomplete.filters? (h : p.FirstIncomplete m builtin) :
    filters? p.entries = .error (m, builtin) := by
  obtain ⟨before, after, split, complete, incomplete, place⟩ := h
  obtain ⟨earlier, rest, entries, rfl, from_here⟩ :=
    List.map_eq_append_iff.1 (p.entries_fst.trans split)
  obtain ⟨⟨m', marked⟩, later, rfl, rfl, -⟩ := List.map_eq_cons_iff.1 from_here
  have mark : marked = builtin := by
    have here : p.entries[earlier.length]? = some (m', marked) := by simp [entries]
    rw [Bool.eq_iff_iff, place, List.length_map]
    exact entries_snd here
  rw [entries, mark]
  exact filters?_of_incomplete (fun other mem => complete _ (List.mem_map_of_mem mem)) incomplete

theorem filters?_of_complete {entries : List (Middleware σ × Bool)}
    (complete : ∀ m ∈ entries.map Prod.fst, m.IsComplete) :
    filters? entries = .ok ((entries.map Prod.fst).filterMap Middleware.filter) := by
  induction entries with
  | nil => rfl
  | cons first rest ih =>
      obtain ⟨first_complete, rest_complete⟩ := List.forall_mem_cons.1 complete
      obtain ⟨hoc, filter, has_hoc, has_filter⟩ := first_complete.exists_parts
      rw [filters?, has_hoc, has_filter, ih rest_complete, List.map_cons,
        List.filterMap_cons_some has_filter]
      rfl

def ask (props : Props) (ms : List (Middleware σ)) : Run σ Empty (List Bool) :=
  runFilters props (ms.filterMap Middleware.filter)

theorem ask_cons {filter : Filter σ} (has : m.filter = some filter) (ms : List (Middleware σ)) :
    ask props (m :: ms) = (do
      let flag ← filter props
      let flags ← ask props ms
      pure (flag :: flags)) := by
  rw [ask, List.filterMap_cons_some has, runFilters]
  rfl

theorem ask_eq_value_iff {ms : List (Middleware σ)} (complete : ∀ m ∈ ms, m.IsComplete)
    {flags : List Bool} {s t : σ} :
    ask props ms s = (.value flags, t) ↔ Answered props ms flags s t := by
  induction ms generalizing flags s with
  | nil =>
      constructor
      · intro asked
        cases asked
        exact .nil _
      · intro answered
        cases answered
        rfl
  | cons m ms ih =>
      obtain ⟨first_complete, rest_complete⟩ := List.forall_mem_cons.1 complete
      obtain ⟨_, filter, -, has⟩ := first_complete.exists_parts
      simp only [ask_cons has, Run.bind_eq_value_iff, Run.pure_apply]
      constructor
      · rintro ⟨flag, u, answer, flags', v, asked, ⟨⟩⟩
        exact .cons has answer ((ih rest_complete).1 asked)
      · intro answered
        cases answered with
        | cons has' answer rest =>
            cases has.symm.trans has'
            exact ⟨_, _, answer, _, _, (ih rest_complete).2 rest, rfl⟩

theorem ask_eq_panic_iff {ms : List (Middleware σ)} (complete : ∀ m ∈ ms, m.IsComplete) {q : Panic}
    {s t : σ} : ask props ms s = (.panic q, t) ↔ Stopped props ms q s t := by
  induction ms generalizing s with
  | nil => exact ⟨nofun, nofun⟩
  | cons m ms ih =>
      obtain ⟨first_complete, rest_complete⟩ := List.forall_mem_cons.1 complete
      obtain ⟨_, filter, -, has⟩ := first_complete.exists_parts
      simp only [ask_cons has, Run.bind_eq_panic_iff, Run.pure_apply]
      constructor
      · rintro (here | ⟨flag, u, answer, stopped | ⟨_, _, _, ⟨⟩⟩⟩)
        · exact .here has here
        · exact .later has answer ((ih rest_complete).1 stopped)
      · intro stopped
        cases stopped with
        | here has' answer =>
            cases has.symm.trans has'
            exact .inl answer
        | later has' answer rest =>
            cases has.symm.trans has'
            exact .inr ⟨_, _, answer, .inl ((ih rest_complete).2 rest)⟩

/-- The state after a refusal: a record for a built-in middleware, nothing otherwise. -/
def noteRefused (m : Middleware σ) (builtin : Bool) (w : World σ) : World σ :=
  { w with events := w.events ++ if builtin then [.incompleteBuiltin m.name] else [] }

theorem FirstIncomplete.select (h : p.FirstIncomplete m builtin) (props : Props) (w : World σ) :
    p.select props w = (.error (.middlewareInvalid m.name builtin), noteRefused m builtin w) := by
  rw [Pipeline.select, h.filters?]
  cases builtin with
  | false => simp [noteRefused, Run.fail]
  | true => rfl

theorem FirstIncomplete.resolve (h : p.FirstIncomplete m builtin) (field : String)
    (reference : Reference σ) (props : Props) (registry : Shared (Registry σ)) (s : Session σ) :
    Resolver.resolve field reference props registry p s =
      (.error (.middlewareInvalid m.name builtin),
        ⟨noteRefused m builtin s.world, s.resolver.counted⟩) := by
  have refused : Session.onWorld (p.select props) ⟨s.world, s.resolver.counted⟩ =
      (.error (.middlewareInvalid m.name builtin),
        ⟨noteRefused m builtin s.world, s.resolver.counted⟩) := by
    unfold Session.onWorld Run.onPart
    rw [h.select props s.world]
  rw [Resolver.resolve, Session.updateResolver, Run.modify_bind_apply]
  exact Run.bind_of_error refused

/-- With complete middlewares, selection runs the filters and does nothing else. -/
theorem select_eq_ask (complete : ∀ m ∈ p.middlewares, m.IsComplete) (props : Props) :
    p.select props = World.onHost (ask props p.middlewares).lift := by
  rw [← p.entries_fst] at complete ⊢
  rw [Pipeline.select, filters?_of_complete complete, ask]

theorem select_eq_value_iff (complete : ∀ m ∈ p.middlewares, m.IsComplete) {flags : List Bool}
    {w w' : World σ} :
    p.select props w = (.value flags, w') ↔
      ∃ t, Answered props p.middlewares flags w.host t ∧ w' = { w with host := t } := by
  simp only [select_eq_ask complete, World.onHost_eq_iff, Run.lift_eq_value_iff,
    ask_eq_value_iff complete]

theorem select_eq_panic_iff (complete : ∀ m ∈ p.middlewares, m.IsComplete) {q : Panic}
    {w w' : World σ} :
    p.select props w = (.panic q, w') ↔
      ∃ t, Stopped props p.middlewares q w.host t ∧ w' = { w with host := t } := by
  simp only [select_eq_ask complete, World.onHost_eq_iff, Run.lift_eq_panic_iff,
    ask_eq_panic_iff complete]

theorem select_ne_error (complete : ∀ m ∈ p.middlewares, m.IsComplete) (e : FormError)
    (w w' : World σ) : p.select props w ≠ (.error e, w') := by
  rw [select_eq_ask complete, Ne, World.onHost_eq_iff]
  rintro ⟨t, failed, -⟩
  exact Run.lift_ne_error _ _ _ _ failed

theorem exists_select_eq_value (complete : ∀ m ∈ p.middlewares, m.IsComplete)
    (answers : ∀ m ∈ p.middlewares, m.Answers props) (w : World σ) :
    ∃ flags w', p.select props w = (.value flags, w') := by
  obtain ⟨flags, t, answered⟩ := Answered.exists_of_answers complete answers w.host
  exact ⟨flags, _, (select_eq_value_iff complete).2 ⟨t, answered, rfl⟩⟩

/-- Completeness is checked before any filter runs. The first incomplete middleware is refused by
name: selection, application and resolution end in that error, the host state is unchanged, and a
resolver has counted the request only. Otherwise selection never fails and runs every filter once,
in order; the flags are their answers. A panic in a filter skips those after it. -/
theorem select_checks_first (p : Pipeline σ) (props : Props) :
    ((∃ m ∈ p.middlewares, ¬m.IsComplete) → ∃ m builtin, p.FirstIncomplete m builtin ∧
      (∀ w, p.select props w =
        (.error (.middlewareInvalid m.name builtin), noteRefused m builtin w)) ∧
      (∀ handle w, p.apply handle props w =
        (.error (.middlewareInvalid m.name builtin), noteRefused m builtin w)) ∧
      ∀ field reference registry s, Resolver.resolve field reference props registry p s =
        (.error (.middlewareInvalid m.name builtin),
          ⟨noteRefused m builtin s.world, s.resolver.counted⟩)) ∧
    ((∀ m ∈ p.middlewares, m.IsComplete) → ∀ w,
      (∀ e w', p.select props w ≠ (.error e, w')) ∧
      (∀ flags w', p.select props w = (.value flags, w') ↔
        ∃ t, Answered props p.middlewares flags w.host t ∧ w' = { w with host := t }) ∧
      (∀ q w', p.select props w = (.panic q, w') ↔
        ∃ t, Stopped props p.middlewares q w.host t ∧ w' = { w with host := t }) ∧
      ((∀ m ∈ p.middlewares, m.Answers props) → ∃ flags w', p.select props w = (.value flags, w')) ∧
      ∀ flags w', p.select props w = (.value flags, w') →
        List.Forall₂ (Gives props) p.middlewares flags ∧
        ∀ (τ : Type) (journal : σ → List τ) (marks : List τ),
          List.Forall₂ (Marks props journal) p.middlewares marks →
            journal w'.host = journal w.host ++ marks) := by
  constructor
  · intro incomplete
    obtain ⟨m, builtin, first⟩ := exists_firstIncomplete incomplete
    exact ⟨m, builtin, first, first.select props,
      fun handle w => Run.bind_of_error (first.select props w),
      fun field reference registry s => first.resolve field reference props registry s⟩
  · intro complete w
    refine ⟨fun e w' => select_ne_error complete e w w', fun _ _ => select_eq_value_iff complete,
      fun _ _ => select_eq_panic_iff complete,
      fun answers => exists_select_eq_value complete answers w, fun flags w' selected => ?_⟩
    obtain ⟨t, answered, rfl⟩ := (select_eq_value_iff complete).1 selected
    exact ⟨answered.gives, fun τ journal marks mark => answered.journal_eq mark⟩

end Pipeline

namespace Sample

def asked (name : String) (flag : Bool) : Middleware (List String) where
  name := name
  hoc := some pure
  filter := some fun _ asked => (.value flag, asked ++ [name])

def panicking : Middleware (List String) where
  name := "panicking"
  hoc := some pure
  filter := some fun _ => Run.panic .unreadable

def withoutHoc : Middleware (List String) := { asked "withoutHoc" true with hoc := none }

/-- The middleware without a wrapper is refused although a filter before it would panic. With
complete middlewares each filter runs once. -/
theorem select_checks_first_withoutHoc :
    (∃ m builtin, m.name = "withoutHoc" ∧ builtin = false ∧
      (Pipeline.ofExternal ⟨0, [asked "first" true, panicking, withoutHoc]⟩).FirstIncomplete m
        builtin ∧
      ∀ w, (Pipeline.ofExternal ⟨0, [asked "first" true, panicking, withoutHoc]⟩).select .empty w =
        (.error (.middlewareInvalid m.name builtin), Pipeline.noteRefused m builtin w)) ∧
    ∀ events, (Pipeline.ofExternal ⟨0, [asked "first" true, asked "second" false]⟩).select .empty
        ⟨["before"], events⟩ =
      (.value [false, true, false], ⟨["before", "first", "second"], events⟩) := by
  constructor
  · obtain ⟨m, builtin, first, selected, -⟩ := (Pipeline.select_checks_first
      (.ofExternal ⟨0, [asked "first" true, panicking, withoutHoc]⟩) .empty).1 (by decide)
    have runs : (Pipeline.ofExternal ⟨0, [asked "first" true, panicking, withoutHoc]⟩).select .empty
        ⟨[], []⟩ = (.error (.middlewareInvalid "withoutHoc" false), ⟨[], []⟩) := rfl
    rw [selected] at runs
    simp only [Prod.mk.injEq, Outcome.error.injEq, FormError.middlewareInvalid.injEq] at runs
    exact ⟨m, builtin, runs.1.1, runs.1.2, first, selected⟩
  · intro events
    have checks := (Pipeline.select_checks_first
      (.ofExternal ⟨0, [asked "first" true, asked "second" false]⟩) .empty).2
      (by decide) ⟨["before"], events⟩
    refine (checks.2.1 _ _).2 ⟨_, ?_, rfl⟩
    exact .cons rfl rfl (.cons rfl rfl (.cons rfl rfl (.nil _)))

end Sample

end Formwork
