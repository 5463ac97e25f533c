import Mathlib.Data.List.Induction
import Formwork.Config

/-!
# Protected built-ins

Over any history of registrations and overrides, a built-in name is refused to registration, and
every name has the function of the last call that was not refused.
-/

namespace Formwork

variable {σ : Type}

namespace Functions

/-- The operations that add a function. -/
inductive Call (σ : Type) where
  /-- Registration in place. -/
  | register (name : String) (f : Function σ)
  /-- Registration in a copy, which replaces the map on success. -/
  | extend (name : String) (f : Function σ)
  | replace (name : String) (f : Function σ)

namespace Call

def name : Call σ → String
  | .register name _ | .extend name _ | .replace name _ => name

def function : Call σ → Function σ
  | .register _ f | .extend _ f | .replace _ f => f

def isReplace : Call σ → Bool
  | .replace _ _ => true
  | _ => false

def perform : Call σ → Run (Functions σ) FunctionConflict Unit
  | .register name f | .extend name f => do
    let extended ← Run.read fun fs => fs.register name f
    let extended ← .ofExcept extended
    .modify fun _ => extended
  | .replace name f => .modify fun fs => fs.replace name f

/-- A registration under a built-in name. -/
def Refused (builtins : List String) (call : Call σ) : Prop :=
  call.name ∈ builtins ∧ call.isReplace = false

instance (builtins : List String) (call : Call σ) : Decidable (call.Refused builtins) :=
  inferInstanceAs (Decidable (_ ∧ _))

theorem perform_eq (call : Call σ) (fs : Functions σ) :
    call.perform fs =
      if call.Refused fs.builtins then (.error ⟨call.name⟩, fs)
      else (.value (), fs.replace call.name call.function) := by
  cases call with
  | register name f | extend name f =>
      by_cases builtin : name ∈ fs.builtins <;>
        simp [perform, Refused, Call.name, isReplace, function, isBuiltin, Functions.register,
          builtin] <;> rfl
  | replace name f => simp [perform, Refused, Call.name, isReplace, function, Run.modify]

end Call

theorem get?_replace (fs : Functions σ) (name other : String) (f : Function σ) :
    (fs.replace name f).get? other = if name = other then some f else fs.get? other :=
  Record.get?_insert fs.table name other f

theorem builtins_perform (call : Call σ) (fs : Functions σ) :
    (call.perform fs).2.builtins = fs.builtins := by
  rw [call.perform_eq]
  split <;> rfl

/-- The step: a call that is not refused sets its own name, and nothing else changes. -/
theorem get?_perform (call : Call σ) (fs : Functions σ) (name : String) :
    (call.perform fs).2.get? name =
      if call.name = name ∧ ¬call.Refused fs.builtins then some call.function
      else fs.get? name := by
  rw [call.perform_eq]
  by_cases refused : call.Refused fs.builtins
  · simp [refused]
  · simp [refused, get?_replace]

def after (calls : List (Call σ)) (fs : Functions σ) : Functions σ :=
  calls.foldl (fun fs call => (call.perform fs).2) fs

/-- The function of the last call on a name. -/
def latest? (calls : List (Call σ)) (name : String) : Option (Function σ) :=
  (calls.filter (·.name = name)).getLast?.map Call.function

theorem after_concat (calls : List (Call σ)) (call : Call σ) (fs : Functions σ) :
    after (calls ++ [call]) fs = (call.perform (after calls fs)).2 := by
  simp [after]

theorem latest?_concat (calls : List (Call σ)) (call : Call σ) (name : String) :
    latest? (calls ++ [call]) name =
      if call.name = name then some call.function else latest? calls name := by
  by_cases same : call.name = name <;> simp [latest?, List.filter_append, same]

theorem latest?_eq_none {calls : List (Call σ)} {name : String}
    (never : ∀ call ∈ calls, call.name ≠ name) : latest? calls name = none := by
  have none_left : calls.filter (·.name = name) = [] := by simpa using never
  rw [latest?, none_left]
  rfl

theorem builtins_after (calls : List (Call σ)) (fs : Functions σ) :
    (after calls fs).builtins = fs.builtins := by
  induction calls using List.reverseRecOn with
  | nil => rfl
  | append_singleton calls call ih => rw [after_concat, builtins_perform, ih]

/-- The run: a name has the function of the last call on it that was not refused. -/
theorem get?_after (calls : List (Call σ)) (fs : Functions σ) (name : String) :
    (after calls fs).get? name =
      (latest? (calls.filter fun call => ¬call.Refused fs.builtins) name).or (fs.get? name) := by
  induction calls using List.reverseRecOn with
  | nil => rfl
  | append_singleton calls call ih =>
      rw [after_concat, get?_perform, builtins_after, ih, List.filter_append]
      by_cases refused : call.Refused fs.builtins
      · simp [refused]
      · have let_in : [call].filter (fun call => ¬call.Refused fs.builtins) = [call] := by
          simp [refused]
        rw [let_in, latest?_concat]
        by_cases here : call.name = name <;> simp [here, refused]

theorem latest?_admitted {builtins : List String} {name : String} (other : name ∉ builtins)
    (calls : List (Call σ)) :
    latest? (calls.filter fun call => ¬call.Refused builtins) name = latest? calls name := by
  have same : (calls.filter fun call => ¬call.Refused builtins).filter (·.name = name) =
      calls.filter (·.name = name) := by
    rw [List.filter_filter]
    refine List.filter_congr fun call _ => ?_
    by_cases here : call.name = name <;> simp [here, Call.Refused, other]
  rw [latest?, latest?, same]

theorem latest?_replaced {builtins : List String} {name : String} (builtin : name ∈ builtins)
    (calls : List (Call σ)) :
    latest? (calls.filter fun call => ¬call.Refused builtins) name =
      latest? (calls.filter Call.isReplace) name := by
  have same : (calls.filter fun call => ¬call.Refused builtins).filter (·.name = name) =
      (calls.filter Call.isReplace).filter (·.name = name) := by
    rw [List.filter_filter, List.filter_filter]
    refine List.filter_congr fun call _ => ?_
    by_cases here : call.name = name <;> simp [here, Call.Refused, builtin]
  rw [latest?, latest?, same]

theorem get?_initial (name : String) :
    (initial : Functions σ).get? name =
      if name = dynamicCommonName then some dynamicCommon else none := by
  have only : (initial : Functions σ).get? name =
      Entries.get? name [(dynamicCommonName, dynamicCommon)] := rfl
  rw [only, Entries.get?, Entries.get?]
  simp only [eq_comm]

theorem call_congr {fs fs' : Functions σ} {name : String} (same : fs.get? name = fs'.get? name)
    (args : List Value) : fs.call name args = fs'.call name args := by
  rw [call, call, same]

theorem withFunction_eq (c : Config σ) (name : String) (f : Function σ) :
    c.withFunction name f =
      (c.functions.register name f).map fun fs => { c with functions := fs } := by
  unfold Config.withFunction
  cases c.functions.register name f <;> rfl

/-- Built-ins are protected over every history of calls. -/
theorem builtins_stay_protected (calls : List (Call σ)) :
    let fs := after calls (initial : Functions σ)
    (∀ name, fs.isBuiltin name = true ↔ name = dynamicCommonName) ∧
    -- A newcomer under a built-in name is refused, replaced or not, and leaves the map as it was.
    (∀ name f, fs.isBuiltin name = true →
      (Call.register name f).perform fs = (.error ⟨name⟩, fs) ∧
      (Call.extend name f).perform fs = (.error ⟨name⟩, fs) ∧
      ∀ c : Config σ, c.functions = fs → c.withFunction name f = .error ⟨name⟩) ∧
    -- Every other name answers with the function of the latest call on it, if there has been one.
    (∀ name, fs.isBuiltin name = false →
      (∀ call : Call σ, call.name = name → (call.perform fs).1 = .value ()) ∧
      fs.get? name = latest? calls name ∧
      (∀ f, latest? calls name = some f → ∀ args,
        fs.call name args = (f args).mapError (.functionFailed name)) ∧
      ((∀ call ∈ calls, call.name ≠ name) → ∀ args,
        fs.call name args = .fail (.functionNotFound name))) ∧
    -- The built-in one is there, and is itself until it is replaced on purpose.
    (fs.get? dynamicCommonName =
        some ((latest? (calls.filter Call.isReplace) dynamicCommonName).getD dynamicCommon) ∧
      ((∀ call ∈ calls, call.isReplace = true → call.name ≠ dynamicCommonName) → ∀ args,
        fs.call dynamicCommonName args = pure (args.head?.getD .null))) ∧
    -- A call on one name is of no matter to another.
    ∀ (call : Call σ) (other : String), call.name ≠ other →
      (call.perform fs).2.get? other = fs.get? other ∧
        ∀ args, (call.perform fs).2.call other args = fs.call other args := by
  intro fs
  have builtins : fs.builtins = [dynamicCommonName] := builtins_after calls initial
  have is_builtin (name : String) : fs.isBuiltin name = true ↔ name = dynamicCommonName := by
    simp [isBuiltin, builtins]
  have other_names (name : String) (other : fs.isBuiltin name = false) :
      fs.get? name = latest? calls name := by
    have not_builtin : name ≠ dynamicCommonName := by simpa [isBuiltin, builtins] using other
    rw [get?_after, latest?_admitted (by simpa [initial] using not_builtin), get?_initial,
      if_neg not_builtin, Option.or_none]
  have the_builtin : fs.get? dynamicCommonName =
      some ((latest? (calls.filter Call.isReplace) dynamicCommonName).getD dynamicCommon) := by
    rw [get?_after, latest?_replaced (by simp [initial]), get?_initial, if_pos rfl]
    cases latest? (calls.filter Call.isReplace) dynamicCommonName <;> rfl
  refine ⟨is_builtin, ?_, ?_, ⟨the_builtin, ?_⟩, ?_⟩
  · intro name f builtin
    have is_member : name ∈ fs.builtins := by simpa [isBuiltin] using builtin
    refine ⟨?_, ?_, ?_⟩
    · rw [Call.perform_eq, if_pos ⟨is_member, rfl⟩]
      rfl
    · rw [Call.perform_eq, if_pos ⟨is_member, rfl⟩]
      rfl
    · intro c same
      rw [withFunction_eq, same, register, if_pos builtin]
      rfl
  · intro name other
    refine ⟨?_, other_names name other, fun f is_latest args => ?_, fun never args => ?_⟩
    · rintro call rfl
      have let_in : ¬call.Refused fs.builtins := fun refused => by
        simp [isBuiltin, refused.1] at other
      rw [Call.perform_eq, if_neg let_in]
    · rw [call, other_names name other, is_latest]
    · rw [call, other_names name other, latest?_eq_none never]
  · intro never args
    have not_replaced : latest? (calls.filter Call.isReplace) dynamicCommonName = none :=
      latest?_eq_none fun call mem => never call (List.mem_filter.1 mem).1 (List.mem_filter.1 mem).2
    rw [call, the_builtin, not_replaced]
    rfl
  · intro call other different
    have same : (call.perform fs).2.get? other = fs.get? other := by
      rw [get?_perform, if_neg fun here => different here.1]
    exact ⟨same, call_congr same⟩

end Functions

namespace Sample

open Functions

def constant (answer : String) : Function Unit := fun _ => pure (.string answer)

/-- The built-in function is overridden between two registrations under its name, and another name
is registered twice. -/
def takings : List (Functions.Call Unit) :=
  [.register "sum" (constant "first"), .register dynamicCommonName (constant "mine"),
    .replace dynamicCommonName (constant "ours"), .extend dynamicCommonName (constant "theirs"),
    .extend "sum" (constant "second")]

/-- The overridden built-in is in use and still protected, and the other name has its last
function. -/
theorem builtins_stay_protected_replaced :
    let fs := after takings Functions.initial
    (Functions.Call.register dynamicCommonName (constant "late")).perform fs =
        (.error ⟨dynamicCommonName⟩, fs) ∧
      fs.call dynamicCommonName [] () = (.value (.string "ours"), ()) ∧
      fs.call "sum" [] () = (.value (.string "second"), ()) ∧
      fs.call "product" [] () = (.error (.functionNotFound "product"), ()) := by
  intro fs
  obtain ⟨is_builtin, refused, others, ⟨the_builtin, -⟩, -⟩ := builtins_stay_protected takings
  refine ⟨(refused _ _ ((is_builtin _).2 rfl)).1, ?_, ?_, ?_⟩
  · rw [Functions.call, the_builtin]
    rfl
  · rw [(others "sum" rfl).2.2.1 (constant "second") rfl]
    rfl
  · rw [(others "product" rfl).2.2.2 (by decide)]
    rfl

end Sample

end Formwork
