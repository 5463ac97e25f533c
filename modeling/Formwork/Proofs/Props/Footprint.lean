import Formwork.Proofs.Expr.Variables
import Formwork.Proofs.Form.Visibility

/-!
# Footprints

The footprint of a prop is the set of function names and context keys that its resolution reads.
Contexts and functions that agree on the footprint resolve the props alike.
-/

namespace Formwork

variable {σ : Type}

/-- The function names and context keys that resolution reads. -/
structure Footprint where
  functions : List String
  values : List String

namespace Footprint

def empty : Footprint := ⟨[], []⟩

def ofMarker (text : String) : Footprint :=
  match Marker.parse? text with
  | some m => ⟨[m.name], m.args⟩
  | none => empty

/-- The free variables of the compiled expression; none if it does not compile. -/
def ofExpression (text : String) : Footprint :=
  match Expression.compile text with
  | .ok e => ⟨[], e.tree.freeVariables⟩
  | .error _ => empty

def ofProp (key : String) : Value → Footprint
  | .string text =>
    if text.toList.head? = some '#' then ofMarker text
    else if key = "disabled" ∨ key = "hidden" then ofExpression text
    else if key = "data" then ⟨[], [text]⟩
    else empty
  | _ => empty

def ofProps (props : Props) : Footprint where
  functions := props.entries.flatMap fun entry => (ofProp entry.1 entry.2).functions
  values := props.entries.flatMap fun entry => (ofProp entry.1 entry.2).values

/-- The two sides agree on every name of the footprint. -/
structure Agrees (footprint : Footprint) (context context' : Context)
    (functions functions' : Functions σ) : Prop where
  functions : ∀ name ∈ footprint.functions, functions.get? name = functions'.get? name
  values : ∀ name ∈ footprint.values, context.get? name = context'.get? name

theorem agrees_of_mem {props : Props} {context context' : Context}
    {functions functions' : Functions σ}
    (agree : (ofProps props).Agrees context context' functions functions')
    {entry : String × Value} (mem : entry ∈ props.entries) :
    (ofProp entry.1 entry.2).Agrees context context' functions functions' where
  functions name found := agree.functions name (List.mem_flatMap_of_mem mem found)
  values name found := agree.values name (List.mem_flatMap_of_mem mem found)

end Footprint

section Resolution

variable {context context' : Context} {functions functions' : Functions σ}

theorem Context.lookup_congr {name : String} (same : context.get? name = context'.get? name) :
    context.lookup name = context'.lookup name := by
  rw [lookup, lookup, same]

theorem Marker.resolve_congr {text : String}
    (agree : (Footprint.ofMarker text).Agrees context context' functions functions') :
    Marker.resolve text context functions = Marker.resolve text context' functions' := by
  unfold Footprint.ofMarker at agree
  unfold resolve
  cases parsed : parse? text with
  | none => rfl
  | some m =>
      rw [parsed] at agree
      have same_args : m.args.map context.lookup = m.args.map context'.lookup :=
        List.map_congr_left fun name mem => Context.lookup_congr (agree.values name mem)
      have same_function := agree.functions m.name (List.mem_singleton_self _)
      simp only [call, Functions.call, same_args, same_function]

theorem Context.evaluate_congr {text : String}
    (agree : (Footprint.ofExpression text).Agrees context context' functions functions') :
    context.evaluate text = context'.evaluate text := by
  have same : Expression.evaluate text context.scope =
      Expression.evaluate text context'.scope := by
    unfold Footprint.ofExpression at agree
    unfold Expression.evaluate
    cases compiled : Expression.compile text with
    | error e => rfl
    | ok e =>
        rw [compiled] at agree
        exact Expr.eval_congr agree.values
  rw [evaluate, evaluate, same]

/-- The step: resolution of a prop depends on its footprint. -/
theorem PropSource.resolve_congr {key : String} {value : Value}
    (agree : (Footprint.ofProp key value).Agrees context context' functions functions') :
    (classify key value).resolve context functions =
      (classify key value).resolve context' functions' := by
  cases value with
  | null | bool | number | array | object => rfl
  | string text =>
      simp only [Footprint.ofProp] at agree
      simp only [classify, ofText]
      split at agree
      · next is_marker =>
        rw [if_pos is_marker]
        exact Marker.resolve_congr agree
      · next no_marker =>
        rw [if_neg no_marker]
        split at agree
        · next is_expression =>
          rw [if_pos is_expression]
          exact congrArg Run.ofExcept (Context.evaluate_congr agree)
        · next no_expression =>
          rw [if_neg no_expression]
          split at agree
          · next is_data =>
            rw [if_pos is_data]
            exact congrArg pure
              (Context.lookup_congr (agree.values text (List.mem_singleton_self text)))
          · next no_data =>
            rw [if_neg no_data]
            rfl

namespace Props

/-- The run: resolution of all props depends on their footprints. -/
theorem resolveEntries_congr {entries : Entries Value}
    (agree : ∀ entry ∈ entries,
      (Footprint.ofProp entry.1 entry.2).Agrees context context' functions functions') :
    resolveEntries context functions entries = resolveEntries context' functions' entries := by
  induction entries with
  | nil => rfl
  | cons entry rest ih =>
      simp only [List.forall_mem_cons] at agree
      rw [resolveEntries, resolveEntries, PropSource.resolve_congr agree.1, ih agree.2]

/-- Props are determined by their footprint. On equal footprints the whole run is equal: values or
error, log and effects. For functions that depend on their arguments alone, the outcome is
independent of the initial state. -/
theorem resolve_eq_of_footprint (props : Props)
    (agree : (Footprint.ofProps props).Agrees context context' functions functions') :
    props.resolve context functions = props.resolve context' functions' ∧
      (functions.ByArguments → ∀ w w', (props.resolve context functions w).1 =
        (props.resolve context' functions' w').1) := by
  have same : props.resolve context functions = props.resolve context' functions' := by
    rw [resolve, resolve, resolveEntries_congr fun _ mem => Footprint.agrees_of_mem agree mem]
  refine ⟨same, fun byArguments w w' => ?_⟩
  rw [← same]
  exact (resolve_alike byArguments.alike context props w w' trivial).1.eq

end Props

end Resolution

namespace Sample

def mixed : Props := .ofList
  [("label", .string "#getDynamicCommon(a)"), ("hidden", .string "\x7b\x7b a > b \x7d\x7d"),
    ("data", .string "b"), ("note", .string "c")]

def few : Context := ⟨.ofList [("a", .ofInt 1), ("b", .ofInt 2)]⟩

def many : Context :=
  ⟨.ofList [("c", .bool true), ("b", .ofInt 2), ("a", .ofInt 1)]⟩

/-- Names in literal props and functions without a marker are not read. -/
theorem resolve_ignores_unread :
    let more := (Functions.initial : Functions Unit).replace "other" dynamicCommon
    (Footprint.ofProps mixed).Agrees few many Functions.initial more ∧
      few.get? "c" ≠ many.get? "c" ∧
      mixed.resolve few (Functions.initial : Functions Unit) = mixed.resolve many more := by
  intro more
  have functions : (Footprint.ofProps mixed).functions = ["getDynamicCommon"] := by
    decide +kernel
  have values : (Footprint.ofProps mixed).values = ["a", "a", "b", "b"] := by
    decide +kernel
  have agree : (Footprint.ofProps mixed).Agrees few many Functions.initial more := by
    constructor
    · rw [functions]
      simp only [List.forall_mem_singleton]
      rfl
    · rw [values]
      simp only [List.forall_mem_cons]
      exact ⟨rfl, rfl, rfl, rfl, nofun⟩
  exact ⟨agree, nofun, (Props.resolve_eq_of_footprint mixed agree).1⟩

end Sample

end Formwork
