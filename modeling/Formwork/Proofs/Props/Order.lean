import Mathlib.Data.List.Forall2
import Formwork.Proofs.Props.Footprint
import Formwork.Proofs.Form.Fieldwise

/-!
# Props in order

Props are resolved in order, each by itself. The first failure ends the resolution with its error,
and the item fails, whether or not it would be hidden.
-/

namespace Formwork

variable {σ : Type}

theorem Run.mapError_error_iff {ε ε' α : Type} {f : ε → ε'} {m : Run σ ε α} {s : σ} {e : ε'} :
    (m.mapError f s).1 = .error e ↔ ∃ e', (m s).1 = .error e' ∧ e = f e' := by
  unfold Run.mapError
  rcases m s with ⟨a | e' | p, t⟩ <;> simp [eq_comm]

theorem Functions.call_error_iff {functions : Functions σ} {name : String} {args : List Value}
    {s : σ} {e : FormError} :
    (functions.call name args s).1 = .error e ↔
      (functions.get? name = none ∧ e = .functionNotFound name) ∨
        ∃ f e', functions.get? name = some f ∧ (f args s).1 = .error e' ∧
          e = .functionFailed name e' := by
  unfold Functions.call
  cases found : functions.get? name with
  | none => simp [Run.fail, eq_comm]
  | some f => simp [Run.mapError_error_iff]

theorem Marker.resolve_error_iff {context : Context} {functions : Functions σ} {text : String}
    {w : World σ} {e : FormError} :
    (Marker.resolve text context functions w).1 = .error e ↔
      ∃ m, Marker.parse? text = some m ∧
        (functions.call m.name (m.args.map context.lookup) w.host).1 = .error e := by
  unfold Marker.resolve
  cases parsed : Marker.parse? text with
  | none =>
      constructor
      · intro failed
        cases failed
      · rintro ⟨m, none_parsed, -⟩
        cases none_parsed
  | some m => simp [World.onHost_fst, Marker.call]

namespace Props

variable {context : Context} {functions : Functions σ}

/-- The props resolve to these values, each in the world that the previous one leaves. -/
inductive Resolves (context : Context) (functions : Functions σ) :
    Entries Value → Entries Value → World σ → World σ → Prop where
  | nil (w : World σ) : Resolves context functions [] [] w w
  | cons {key : String} {raw value : Value} {rest values : Entries Value} {w t u : World σ}
      (own : resolveEntry context functions (key, raw) w = (.value value, t))
      (next : Resolves context functions rest values
        { t with events := t.events ++ [.propResolved key value] } u) :
      Resolves context functions ((key, raw) :: rest) ((key, value) :: values) w u

theorem Resolves.keys_eq {entries values : Entries Value} {w u : World σ}
    (h : Resolves context functions entries values w u) :
    Entries.keys values = Entries.keys entries := by
  induction h with
  | nil => rfl
  | cons _ _ ih => rw [Entries.keys_cons, Entries.keys_cons, ih]

/-- The entry's key, with the value that the entry resolves to by itself. -/
structure Own (context : Context) (functions : Functions σ) (w : World σ)
    (entry found : String × Value) : Prop where
  key : found.1 = entry.1
  value : (resolveEntry context functions entry w).1 = .value found.2

theorem Resolves.own {entries values : Entries Value} {w u : World σ}
    (h : Resolves context functions entries values w u) :
    List.Forall₂ (fun entry found => ∃ t, Own context functions t entry found) entries values := by
  induction h with
  | nil => exact .nil
  | cons own _ ih => exact .cons ⟨_, rfl, congrArg Prod.fst own⟩ ih

theorem resolveEntries_cons (entry : String × Value) (rest : Entries Value) :
    resolveEntries context functions (entry :: rest) = (do
      let value ← resolveEntry context functions entry
      World.record (.propResolved entry.1 value)
      let more ← resolveEntries context functions rest
      pure ((entry.1, value) :: more)) := rfl

theorem Resolves.run {before values : Entries Value} {w t : World σ}
    (h : Resolves context functions before values w t) (rest : Entries Value) :
    resolveEntries context functions (before ++ rest) w = (do
      let more ← resolveEntries context functions rest
      pure (values ++ more)) t := by
  induction h with
  | nil => exact congrFun (bind_pure (resolveEntries context functions rest)).symm _
  | @cons key raw value before values w t u own next ih =>
      rw [List.cons_append, resolveEntries_cons, Run.bind_of_value own, World.record,
        Run.modify_bind_apply, Run.bind_apply, ih, Run.bind_apply, Run.bind_apply]
      rcases resolveEntries context functions rest u with ⟨_ | _ | _, _⟩ <;> rfl

theorem resolves_or_breaks (context : Context) (functions : Functions σ) (entries : Entries Value)
    (w : World σ) :
    (∃ values u, Resolves context functions entries values w u) ∨
      ∃ before entry rest values t, entries = before ++ entry :: rest ∧
        Resolves context functions before values w t ∧
          ∀ value, (resolveEntry context functions entry t).1 ≠ .value value := by
  induction entries generalizing w with
  | nil => exact .inl ⟨[], w, .nil w⟩
  | cons entry rest ih =>
      obtain ⟨key, raw⟩ := entry
      rcases own : resolveEntry context functions (key, raw) w with ⟨value | e | p, t⟩
      · rcases ih { t with events := t.events ++ [.propResolved key value] } with
          ⟨values, u, all⟩ | ⟨before, entry, after, values, u, rfl, earlier, breaks⟩
        · exact .inl ⟨_, u, .cons own all⟩
        · exact .inr ⟨_, entry, after, _, u, rfl, .cons own earlier, breaks⟩
      · exact .inr ⟨[], _, rest, [], w, rfl, .nil w, by rw [own]; exact nofun⟩
      · exact .inr ⟨[], _, rest, [], w, rfl, .nil w, by rw [own]; exact nofun⟩

/-- The possible results of a resolution with the world left; after a failure, that of the failing
prop. -/
inductive Resolution (context : Context) (functions : Functions σ) (props : Props) (w : World σ) :
    Outcome FormError Props → World σ → Prop where
  | value {values : Props} {u : World σ}
      (all : Resolves context functions props.entries values.entries w u) :
      Resolution context functions props w (.value values) u
  | error {before rest values : Entries Value} {entry : String × Value} {t u : World σ}
      {e : FormError} (split : props.entries = before ++ entry :: rest)
      (earlier : Resolves context functions before values w t)
      (failed : resolveEntry context functions entry t = (.error e, u)) :
      Resolution context functions props w (.error e) u
  | panic {before rest values : Entries Value} {entry : String × Value} {t u : World σ}
      {p : Panic} (split : props.entries = before ++ entry :: rest)
      (earlier : Resolves context functions before values w t)
      (failed : resolveEntry context functions entry t = (.panic p, u)) :
      Resolution context functions props w (.panic p) u

theorem Resolution.resolve_eq {props : Props} {w u : World σ} {o : Outcome FormError Props}
    (h : Resolution context functions props w o u) : props.resolve context functions w = (o, u) := by
  unfold resolve
  cases h with
  | @value values u all =>
      have ends : resolveEntries context functions props.entries w = (.value values.entries, u) := by
        rw [← List.append_nil props.entries, all.run]
        simp [resolveEntries]
      rw [Run.bind_of_value ends]
      exact congrArg (fun r => (Outcome.value r, u)) (Record.empty_insertAll values)
  | error split earlier failed =>
      refine Run.bind_of_error ?_
      rw [split, earlier.run, resolveEntries_cons]
      exact Run.bind_of_error (Run.bind_of_error failed)
  | panic split earlier failed =>
      refine Run.bind_of_panic ?_
      rw [split, earlier.run, resolveEntries_cons]
      exact Run.bind_of_panic (Run.bind_of_panic failed)

theorem resolve_eq_iff {props : Props} {w u : World σ} {o : Outcome FormError Props} :
    props.resolve context functions w = (o, u) ↔ Resolution context functions props w o u := by
  refine ⟨fun ended => ?_, Resolution.resolve_eq⟩
  rcases resolves_or_breaks context functions props.entries w with
    ⟨values, t, all⟩ | ⟨before, entry, rest, values, t, split, earlier, breaks⟩
  · have distinct : (Entries.keys values).Nodup := all.keys_eq ▸ props.distinct
    have resolution : Resolution context functions props w (.value ⟨values, distinct⟩) t := .value all
    cases resolution.resolve_eq.symm.trans ended
    exact resolution
  · rcases failed : resolveEntry context functions entry t with ⟨value | e | p, t'⟩
    · exact (breaks value (congrArg Prod.fst failed)).elim
    · have resolution := Resolution.error split earlier failed
      cases resolution.resolve_eq.symm.trans ended
      exact resolution
    · have resolution := Resolution.panic split earlier failed
      cases resolution.resolve_eq.symm.trans ended
      exact resolution

theorem Resolves.congr {entries values : Entries Value} {w u : World σ}
    (h : Resolves context functions entries values w u) {functions' : Functions σ}
    (same : ∀ entry ∈ entries, (Footprint.ofProp entry.1 entry.2).Agrees context context functions
      functions') : Resolves context functions' entries values w u := by
  induction h with
  | nil w => exact .nil w
  | cons own _ ih =>
      obtain ⟨here, behind⟩ := List.forall_mem_cons.1 same
      refine .cons ?_ (ih behind)
      rw [← own]
      exact congrFun (PropSource.resolve_congr here).symm _

/-- The possible failures of a prop, with the resulting error: a function that is missing or fails,
or an expression that does not compile or evaluate. -/
inductive Fault (context : Context) (functions : Functions σ) (host : σ) (entry : String × Value) :
    FormError → Prop where
  | unknown {text : String} {m : Marker} (raw : entry.2 = .string text)
      (marked : text.toList.head? = some '#') (parsed : Marker.parse? text = some m)
      (missing : functions.get? m.name = none) :
      Fault context functions host entry (.functionNotFound m.name)
  | function {text : String} {m : Marker} {f : Function σ} {e : HostError}
      (raw : entry.2 = .string text) (marked : text.toList.head? = some '#')
      (parsed : Marker.parse? text = some m) (found : functions.get? m.name = some f)
      (failed : (f (m.args.map context.lookup) host).1 = .error e) :
      Fault context functions host entry (.functionFailed m.name e)
  | expression {text : String} {e : ExpressionError} (raw : entry.2 = .string text)
      (unmarked : text.toList.head? ≠ some '#') (key : entry.1 = "disabled" ∨ entry.1 = "hidden")
      (failed : Expression.evaluate text context.scope = .error e) :
      Fault context functions host entry (.expression text e)

section Entry

variable {key text : String} {raw : Value}

theorem resolveEntry_marker (marked : text.toList.head? = some '#') :
    resolveEntry context functions (key, .string text) =
      Marker.resolve text context functions := by
  rw [resolveEntry, PropSource.classify, PropSource.ofText, if_pos marked]
  rfl

theorem resolveEntry_expression (unmarked : text.toList.head? ≠ some '#')
    (evaluated : key = "disabled" ∨ key = "hidden") :
    resolveEntry context functions (key, .string text) = .ofExcept (context.evaluate text) := by
  rw [resolveEntry, PropSource.classify, PropSource.ofText, if_neg unmarked, if_pos evaluated]
  rfl

/-- A literal: not a text, or a text without `#` under a key without special meaning. -/
def Plain (key : String) (raw : Value) : Prop :=
  ∀ text, raw = .string text →
    text.toList.head? ≠ some '#' ∧ key ≠ "disabled" ∧ key ≠ "hidden" ∧ key ≠ "data"

theorem resolveEntry_plain (plain : Plain key raw) :
    resolveEntry context functions (key, raw) = pure raw := by
  cases raw with
  | null | bool | number | array | object => rfl
  | string text =>
      obtain ⟨unmarked, not_disabled, not_hidden, not_data⟩ := plain text rfl
      rw [resolveEntry, PropSource.classify, PropSource.ofText, if_neg unmarked,
        if_neg (by simp [not_disabled, not_hidden]), if_neg not_data]
      rfl

theorem resolveEntry_data (unmarked : text.toList.head? ≠ some '#') :
    resolveEntry context functions ("data", .string text) = pure (context.lookup text) := by
  rw [resolveEntry, PropSource.classify, PropSource.ofText, if_neg unmarked, if_neg (by simp),
    if_pos rfl]
  rfl

theorem text_cases (key text : String) :
    text.toList.head? = some '#' ∨
      (text.toList.head? ≠ some '#' ∧ (key = "disabled" ∨ key = "hidden")) ∨
        (text.toList.head? ≠ some '#' ∧ key = "data") ∨ Plain key (.string text) := by
  by_cases marked : text.toList.head? = some '#'
  · exact .inl marked
  · by_cases evaluated : key = "disabled" ∨ key = "hidden"
    · exact .inr (.inl ⟨marked, evaluated⟩)
    · by_cases data : key = "data"
      · exact .inr (.inr (.inl ⟨marked, data⟩))
      · refine .inr (.inr (.inr ?_))
        rintro _ ⟨⟩
        rw [not_or] at evaluated
        exact ⟨marked, evaluated.1, evaluated.2, data⟩

theorem fault_iff {w : World σ} {e : FormError} :
    (resolveEntry context functions (key, raw) w).1 = .error e ↔
      Fault context functions w.host (key, raw) e := by
  constructor
  · intro failed
    cases raw with
    | null | bool | number | array | object => cases failed
    | string text =>
        rcases text_cases key text with
          marked | ⟨unmarked, evaluated⟩ | ⟨unmarked, rfl⟩ | plain
        · rw [resolveEntry_marker marked, Marker.resolve_error_iff] at failed
          obtain ⟨m, parsed, called⟩ := failed
          rcases Functions.call_error_iff.1 called with
            ⟨missing, rfl⟩ | ⟨f, e', found, failed, rfl⟩
          · exact .unknown rfl marked parsed missing
          · exact .function rfl marked parsed found failed
        · rw [resolveEntry_expression unmarked evaluated, Context.evaluate] at failed
          split at failed
          · cases failed
          · next e' refused =>
            cases failed
            exact .expression rfl unmarked evaluated refused
        · rw [resolveEntry_data unmarked] at failed
          cases failed
        · rw [resolveEntry_plain plain] at failed
          cases failed
  · intro fault
    cases fault with
    | unknown is_text marked parsed missing =>
        cases is_text
        rw [resolveEntry_marker marked, Marker.resolve_error_iff]
        exact ⟨_, parsed, Functions.call_error_iff.2 (.inl ⟨missing, rfl⟩)⟩
    | function is_text marked parsed found failed =>
        cases is_text
        rw [resolveEntry_marker marked, Marker.resolve_error_iff]
        exact ⟨_, parsed, Functions.call_error_iff.2 (.inr ⟨_, _, found, failed, rfl⟩)⟩
    | expression is_text unmarked evaluated refused =>
        cases is_text
        rw [resolveEntry_expression unmarked evaluated, Context.evaluate, refused]
        rfl

end Entry

section ByArguments

variable (byArguments : functions.ByArguments)
include byArguments

/-- For functions that depend on their arguments alone, a prop resolves alike in every world. -/
theorem resolveEntry_anywhere (entry : String × Value) (w w' : World σ) :
    (resolveEntry context functions entry w).1 = (resolveEntry context functions entry w').1 :=
  (PropSource.resolve_alike byArguments.alike context _ w w' trivial).1.eq

theorem Resolves.own_in {entries values : Entries Value} {w u : World σ}
    (h : Resolves context functions entries values w u) (w' : World σ) :
    List.Forall₂ (Own context functions w') entries values := by
  refine h.own.imp ?_
  rintro entry found ⟨t, same_key, resolved⟩
  exact ⟨same_key, (resolveEntry_anywhere byArguments entry w' t).trans resolved⟩

theorem exists_resolves {entries values : Entries Value} {w' : World σ}
    (own : List.Forall₂ (Own context functions w') entries values) (w : World σ) :
    ∃ u, Resolves context functions entries values w u := by
  induction own generalizing w with
  | nil => exact ⟨w, .nil w⟩
  | @cons entry found entries values first _ ih =>
      obtain ⟨key, raw⟩ := entry
      obtain ⟨name, value⟩ := found
      obtain ⟨rfl, resolved⟩ := first
      obtain ⟨t, here⟩ := Outcome.exists_state_of_fst
        ((resolveEntry_anywhere byArguments (name, raw) w w').trans resolved)
      obtain ⟨u, behind⟩ := ih { t with events := t.events ++ [.propResolved name value] }
      exact ⟨u, .cons here behind⟩

theorem resolve_value_iff_own {props values : Props} {w w' : World σ} :
    (props.resolve context functions w).1 = .value values ↔
      List.Forall₂ (Own context functions w') props.entries values.entries := by
  constructor
  · intro resolved
    obtain ⟨u, ended⟩ := Outcome.exists_state_of_fst resolved
    cases resolve_eq_iff.1 ended with
    | value all => exact all.own_in byArguments w'
  · intro own
    obtain ⟨u, all⟩ := exists_resolves byArguments own w
    rw [(Resolution.value all).resolve_eq]

theorem resolve_error_iff_own {props : Props} {w w' : World σ} {e : FormError} :
    (props.resolve context functions w).1 = .error e ↔
      ∃ before entry rest values, props.entries = before ++ entry :: rest ∧
        List.Forall₂ (Own context functions w') before values ∧
          (resolveEntry context functions entry w').1 = .error e := by
  constructor
  · intro failed
    obtain ⟨u, ended⟩ := Outcome.exists_state_of_fst failed
    cases resolve_eq_iff.1 ended with
    | error split earlier failed =>
        refine ⟨_, _, _, _, split, earlier.own_in byArguments w', ?_⟩
        rw [resolveEntry_anywhere byArguments _ w' _, failed]
  · rintro ⟨before, entry, rest, values, split, own, failed⟩
    obtain ⟨t, earlier⟩ := exists_resolves byArguments own w
    obtain ⟨u, here⟩ := Outcome.exists_state_of_fst
      ((resolveEntry_anywhere byArguments entry t w').trans failed)
    rw [(Resolution.error split earlier here).resolve_eq]

end ByArguments

/-- An item whose props fail ends in their error, whether or not it would be hidden. -/
theorem build_of_resolve (item : Item σ) (config : Config σ) (context : Context)
    (strategy : Strategy σ) (s : Session σ) (u : World σ) :
    (∀ e, item.props.resolve context config.functions s.world = (.error e, u) →
      item.build config context strategy s = (.error e, { s with world := u })) ∧
    ∀ p, item.props.resolve context config.functions s.world = (.panic p, u) →
      item.build config context strategy s = (.panic p, { s with world := u }) := by
  constructor
  · intro e ended
    refine Run.bind_of_error ?_
    rw [Session.onWorld, Run.onPart, ended]
  · intro p ended
    refine Run.bind_of_panic ?_
    rw [Session.onWorld, Run.onPart, ended]

/-- Props are resolved in order, each by itself. -/
theorem resolve_in_order (props : Props) (context : Context) (functions : Functions σ)
    (w : World σ) :
    -- A resolution comes to the values of all props, or to the failure of the first that fails and
    -- then to the world that this one has left.
    (∀ o u, props.resolve context functions w = (o, u) ↔
      Resolution context functions props w o u) ∧
    -- The values stand under the same keys in the same order, and each is the prop's own.
    (∀ values u, Resolution context functions props w (.value values) u →
      values.keys = props.keys ∧
        List.Forall₂ (fun entry found => ∃ t, Own context functions t entry found) props.entries
          values.entries) ∧
    (∀ key raw, Plain key raw → resolveEntry context functions (key, raw) = pure raw) ∧
    -- An error names what is wrong with its prop, an expression by its whole text.
    (∀ entry t e, (resolveEntry context functions entry t).1 = .error e ↔
      Fault context functions t.host entry e) ∧
    -- Behind a failing prop no function is called: any others may stand in their places.
    (∀ before entry rest values t, props.entries = before ++ entry :: rest →
      Resolves context functions before values w t →
      (∀ value, (resolveEntry context functions entry t).1 ≠ .value value) →
      ∀ functions' : Functions σ, (∀ read ∈ before ++ [entry],
        (Footprint.ofProp read.1 read.2).Agrees context context functions functions') →
        props.resolve context functions' w = props.resolve context functions w) ∧
    -- With functions that answer by their arguments alone, what each prop resolves to on its own, in
    -- whatever world, decides.
    (functions.ByArguments → ∀ w' : World σ,
      (∀ values, (props.resolve context functions w).1 = .value values ↔
        List.Forall₂ (Own context functions w') props.entries values.entries) ∧
      ∀ e, (props.resolve context functions w).1 = .error e ↔
        ∃ before entry rest values, props.entries = before ++ entry :: rest ∧
          List.Forall₂ (Own context functions w') before values ∧
            (resolveEntry context functions entry w').1 = .error e) ∧
    -- An item with a failing prop fails at once, whatever the props say of hiding it.
    ∀ (item : Item σ) (config : Config σ) (strategy : Strategy σ) (s : Session σ) (u : World σ),
      item.props = props → config.functions = functions → s.world = w →
      (∀ e, props.resolve context functions w = (.error e, u) →
        item.build config context strategy s = (.error e, { s with world := u }) ∧
        ∀ catchPanics, (isolate item.field catchPanics (item.build config context strategy) s).1 =
          .value (.error ⟨item.field, e⟩)) ∧
      ∀ p, props.resolve context functions w = (.panic p, u) →
        item.build config context strategy s = (.panic p, { s with world := u }) ∧
        (isolate item.field true (item.build config context strategy) s).1 =
          .value (.error ⟨item.field, .panicked p.text⟩) := by
  refine ⟨fun o u => resolve_eq_iff, ?_, fun key raw => resolveEntry_plain,
    fun entry t e => fault_iff, ?_, fun byArguments w' => ?_, ?_⟩
  · rintro values u (all | _ | _)
    exact ⟨all.keys_eq, all.own⟩
  · intro before entry rest values t split earlier breaks functions' agree
    obtain ⟨agree_before, agree_here⟩ := List.forall_mem_append.1 agree
    have earlier' := earlier.congr agree_before
    have here : resolveEntry context functions entry t = resolveEntry context functions' entry t :=
      congrFun (PropSource.resolve_congr (agree_here entry (List.mem_singleton_self entry))) t
    rcases failed : resolveEntry context functions entry t with ⟨value | e | p, u⟩
    · exact (breaks value (congrArg Prod.fst failed)).elim
    · rw [(Resolution.error split earlier failed).resolve_eq,
        (Resolution.error split earlier' (here.symm.trans failed)).resolve_eq]
    · rw [(Resolution.panic split earlier failed).resolve_eq,
        (Resolution.panic split earlier' (here.symm.trans failed)).resolve_eq]
  · exact ⟨fun values => resolve_value_iff_own byArguments,
      fun e => resolve_error_iff_own byArguments⟩
  · rintro item config strategy s u rfl rfl rfl
    obtain ⟨of_error, of_panic⟩ := build_of_resolve item config context strategy s u
    refine ⟨fun e ended => ⟨of_error e ended, fun catchPanics => ?_⟩,
      fun p ended => ⟨of_panic p ended, ?_⟩⟩
    · rw [isolate_of_error (of_error e ended)]
    · rw [isolate_of_caught (of_panic p ended)]

end Props

namespace Sample

def noting (name : String) : Function (List String) :=
  fun _ calls => (.value (.string name), calls ++ [name])

def notingConfig : Config (List String) :=
  { Config.initial 0 1 with
    functions := (Functions.initial.replace "first" (noting "first")).replace "last" (noting "last") }

/-- A hidden item with an incomplete expression, followed by a call. -/
def breakingOff : Item (List String) where
  field := "age"
  reference := .named "Input"
  props := ⟨[("label", .string "#first()"), ("hidden", .bool true), ("disabled", .string "age >"),
    ("tip", .string "#last()")], by decide⟩
  formItemProps := none

theorem exists_error_age : ∃ e, Expression.evaluate "age >" Context.empty.scope = .error e := by
  have refused : (Expression.evaluate "age >" Context.empty.scope).isOk = false := by
    decide +kernel
  cases evaluated : Expression.evaluate "age >" Context.empty.scope with
  | error e => exact ⟨e, rfl⟩
  | ok value =>
      rw [evaluated] at refused
      cases refused

theorem resolveEntry_label (w : World (List String)) :
    Props.resolveEntry .empty notingConfig.functions ("label", .string "#first()") w =
      (.value (.string "first"), { w with host := w.host ++ ["first"] }) := by
  have parsed : Marker.parse? "#first()" = some ⟨"first", []⟩ := by decide +kernel
  rw [Props.resolveEntry_marker (by decide), Marker.resolve, parsed]
  rfl

/-- The item fails with the text of the expression, and the call does not run. -/
theorem resolve_in_order_breakingOff :
    let noted : World (List String) :=
      ⟨["first"], [.propResolved "label" (.string "first"), .propResolved "hidden" (.bool true)]⟩
    ∃ e, breakingOff.props.resolve .empty notingConfig.functions ⟨[], []⟩ =
        (.error (.expression "age >" e), noted) ∧
      ∀ strategy, (isolate "age" false (breakingOff.build notingConfig .empty strategy)
        ⟨⟨[], []⟩, .empty⟩).1 = .value (.error ⟨"age", .expression "age >" e⟩) := by
  intro noted
  obtain ⟨e, refused⟩ := exists_error_age
  obtain ⟨comes, -, -, -, -, -, of_item⟩ :=
    Props.resolve_in_order breakingOff.props .empty notingConfig.functions ⟨[], []⟩
  have failed : Props.resolveEntry .empty notingConfig.functions ("disabled", .string "age >")
      noted = (.error (.expression "age >" e), noted) := by
    rw [Props.resolveEntry_expression (by decide) (by decide), Context.evaluate, refused]
    rfl
  have ends : breakingOff.props.resolve .empty notingConfig.functions ⟨[], []⟩ =
      (.error (.expression "age >" e), noted) :=
    (comes _ _).2 (.error rfl (.cons (resolveEntry_label _) (.cons rfl (.nil _))) failed)
  refine ⟨e, ends, fun strategy => ?_⟩
  obtain ⟨of_error, -⟩ := of_item breakingOff notingConfig strategy ⟨⟨[], []⟩, .empty⟩ noted rfl rfl
    rfl
  exact (of_error _ ends).2 false

end Sample

end Formwork
