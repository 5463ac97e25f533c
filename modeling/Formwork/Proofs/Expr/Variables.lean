import Mathlib.Data.List.Basic
import Mathlib.Data.List.Induction
import Formwork.Expr.Eval

/-!
# Free variables

Evaluation depends on the scope through the free variables of the tree only, and an unknown variable
is one of them.
-/

namespace Formwork

theorem pairwise_idxOf_eraseDups (names : List String) :
    names.eraseDups.Pairwise fun x y => names.idxOf x < names.idxOf y := by
  induction names using List.reverseRecOn with
  | nil => exact .nil
  | append_singleton names name ih =>
      have index {x : String} (mem : x ∈ names.eraseDups) :
          (names ++ [name]).idxOf x = names.idxOf x :=
        List.idxOf_append_of_mem (List.mem_eraseDups.1 mem)
      have kept : names.eraseDups.Pairwise fun x y =>
          (names ++ [name]).idxOf x < (names ++ [name]).idxOf y := by
        refine ih.imp_of_mem fun x_mem y_mem earlier => ?_
        rw [index x_mem, index y_mem]
        exact earlier
      rw [eraseDups_concat]
      split
      · exact kept
      · next new =>
        refine List.pairwise_append.2 ⟨kept, List.pairwise_singleton _ _, fun x mem y is_new => ?_⟩
        rw [List.mem_singleton.1 is_new, index mem, List.idxOf_append_of_notMem new]
        have inside : names.idxOf x < names.length :=
          List.idxOf_lt_length_iff.2 (List.mem_eraseDups.1 mem)
        omega

theorem error_of_bind {ε α β : Type} {m : Except ε α} {f : α → Except ε β} {e : ε}
    (h : (m >>= f) = .error e) : m = .error e ∨ ∃ a, m = .ok a ∧ f a = .error e := by
  cases m with
  | error e' =>
      cases h
      exact .inl rfl
  | ok a => exact .inr ⟨a, rfl, h⟩

/-! ## Operators are independent of the scope -/

section Operators

variable {left right : Value} {name : String}

theorem Value.access_ne_unknown : left.access right ≠ .error (.unknownVariable name) := by
  unfold Value.access
  dsimp only
  split
  · nofun
  · nofun
  · split <;> nofun
  · split
    · nofun
    · split <;> nofun
  · nofun
  · nofun

theorem UnaryOp.apply_ne_unknown (op : UnaryOp) :
    op.apply left ≠ .error (.unknownVariable name) := by
  unfold UnaryOp.apply
  split
  · nofun
  · split <;> nofun

namespace BinaryOp

theorem numbers_ne_unknown (op : BinaryOp) :
    op.numbers left right ≠ .error (.unknownVariable name) := by
  unfold numbers
  split <;> nofun

theorem sum_ne_unknown : sum left right ≠ .error (.unknownVariable name) := by
  intro failed
  unfold sum at failed
  split at failed
  · cases failed
  · cases failed
  · rcases error_of_bind failed with failed | ⟨_, -, failed⟩
    · exact numbers_ne_unknown _ failed
    · cases failed

theorem arithmetic_ne_unknown (op : BinaryOp) (f : Finite → Finite → Binary64) :
    op.arithmetic f left right ≠ .error (.unknownVariable name) := by
  intro failed
  rcases error_of_bind failed with failed | ⟨_, -, failed⟩
  · exact numbers_ne_unknown _ failed
  · cases failed

theorem quotient_ne_unknown (op : BinaryOp) (f : Finite → Finite → Binary64) :
    op.quotient f left right ≠ .error (.unknownVariable name) := by
  intro failed
  rcases error_of_bind failed with failed | ⟨_, -, failed⟩
  · exact numbers_ne_unknown _ failed
  · dsimp only at failed
    split at failed <;> cases failed

theorem order_ne_unknown (op : BinaryOp) :
    op.order left right ≠ .error (.unknownVariable name) := by
  intro failed
  unfold order at failed
  split at failed
  · cases failed
  · rcases error_of_bind failed with failed | ⟨_, -, failed⟩
    · exact numbers_ne_unknown _ failed
    · cases failed

theorem compare_ne_unknown (op : BinaryOp) (accept : Ordering → Bool) :
    op.compare accept left right ≠ .error (.unknownVariable name) := by
  intro failed
  rcases error_of_bind failed with failed | ⟨_, -, failed⟩
  · exact order_ne_unknown _ failed
  · cases failed

theorem apply_ne_unknown (op : BinaryOp) :
    op.apply left right ≠ .error (.unknownVariable name) := by
  cases op with
  | add => exact sum_ne_unknown
  | subtract | multiply => exact arithmetic_ne_unknown _ _
  | divide | remainder => exact quotient_ne_unknown _ _
  | less | lessEqual | greater | greaterEqual => exact compare_ne_unknown _ _
  | looseEqual | looseNotEqual | strictEqual | strictNotEqual => nofun

end BinaryOp

end Operators

namespace Expr

theorem mem_freeVariables {e : Expr} {name : String} :
    name ∈ e.freeVariables ↔ name ∈ e.occurrences := List.mem_eraseDups

/-- Evaluation of every subtree depends on the variables that occur in it. -/
theorem eval_congr_occurrences {scope scope' : Scope} {e : Expr}
    (agree : ∀ name ∈ e.occurrences, scope name = scope' name) :
    e.eval scope = e.eval scope' := by
  induction e with
  | literal value => rfl
  | «variable» name =>
      rw [eval, eval, agree name (List.mem_singleton_self name)]
  | member object property ih ih' =>
      simp only [occurrences, List.forall_mem_append] at agree
      rw [eval, eval, ih agree.1, ih' agree.2]
  | unary op operand ih => rw [eval, eval, ih agree]
  | binary op left right ih ih' =>
      simp only [occurrences, List.forall_mem_append] at agree
      rw [eval, eval, ih agree.1, ih' agree.2]
  | logical op left right ih ih' =>
      simp only [occurrences, List.forall_mem_append] at agree
      rw [eval, eval, ih agree.1, ih' agree.2]
  | conditional test consequent alternate ih ih' ih'' =>
      simp only [occurrences, List.forall_mem_append] at agree
      rw [eval, eval, ih agree.1.1, ih' agree.1.2, ih'' agree.2]

theorem eval_congr {scope scope' : Scope} {e : Expr}
    (agree : ∀ name ∈ e.freeVariables, scope name = scope' name) :
    e.eval scope = e.eval scope' :=
  eval_congr_occurrences fun name mem => agree name (mem_freeVariables.2 mem)

theorem occurs_of_unknown {scope : Scope} {e : Expr} {name : String}
    (failed : e.eval scope = .error (.unknownVariable name)) :
    name ∈ e.occurrences ∧ scope name = none := by
  induction e with
  | literal value => cases failed
  | «variable» other =>
      unfold eval at failed
      split at failed
      · cases failed
      · next missing =>
        cases failed
        exact ⟨List.mem_singleton_self _, missing⟩
  | member object property ih ih' =>
      rcases error_of_bind failed with failed | ⟨_, -, failed⟩
      · exact (ih failed).imp_left (List.mem_append_left _)
      rcases error_of_bind failed with failed | ⟨_, -, failed⟩
      · exact (ih' failed).imp_left (List.mem_append_right _)
      · exact (Value.access_ne_unknown failed).elim
  | unary op operand ih =>
      rcases error_of_bind failed with failed | ⟨_, -, failed⟩
      · exact ih failed
      · exact (op.apply_ne_unknown failed).elim
  | binary op left right ih ih' =>
      rcases error_of_bind failed with failed | ⟨_, -, failed⟩
      · exact (ih failed).imp_left (List.mem_append_left _)
      rcases error_of_bind failed with failed | ⟨_, -, failed⟩
      · exact (ih' failed).imp_left (List.mem_append_right _)
      · exact (op.apply_ne_unknown failed).elim
  | logical op left right ih ih' =>
      rcases error_of_bind failed with failed | ⟨value, -, failed⟩
      · exact (ih failed).imp_left (List.mem_append_left _)
      split at failed
      · cases failed
      · exact (ih' failed).imp_left (List.mem_append_right _)
  | conditional test consequent alternate ih ih' ih'' =>
      rcases error_of_bind failed with failed | ⟨value, -, failed⟩
      · exact (ih failed).imp_left fun mem => List.mem_append_left _ (List.mem_append_left _ mem)
      split at failed
      · exact (ih' failed).imp_left fun mem =>
          List.mem_append_left _ (List.mem_append_right _ mem)
      · exact (ih'' failed).imp_left (List.mem_append_right _)

/-- Evaluation depends exactly on the listed variables. Each variable of the tree is listed once, by
first occurrence; scopes of any type that agree on them give the same value or error; and an unknown
variable is a listed one that the scope lacks. -/
theorem eval_determined_by_freeVariables (e : Expr) :
    ((∀ name, name ∈ e.freeVariables ↔ name ∈ e.occurrences) ∧
      e.freeVariables.Nodup ∧
        e.freeVariables.Pairwise fun x y => e.occurrences.idxOf x < e.occurrences.idxOf y) ∧
    (∀ scope scope' : Scope, (∀ name ∈ e.freeVariables, scope name = scope' name) →
      e.eval scope = e.eval scope') ∧
    ∀ (scope : Scope) (name : String), e.eval scope = .error (.unknownVariable name) →
      name ∈ e.freeVariables ∧ scope name = none := by
  have ordered : e.freeVariables.Pairwise fun x y =>
      e.occurrences.idxOf x < e.occurrences.idxOf y := pairwise_idxOf_eraseDups e.occurrences
  have distinct : e.freeVariables.Nodup := by
    refine ordered.imp fun earlier same => ?_
    rw [same] at earlier
    exact Nat.lt_irrefl _ earlier
  refine ⟨⟨fun _ => mem_freeVariables, distinct, ordered⟩, fun _ _ => eval_congr, ?_⟩
  intro scope name failed
  obtain ⟨occurs, missing⟩ := occurs_of_unknown failed
  exact ⟨mem_freeVariables.2 occurs, missing⟩

end Expr

namespace Sample

/-- `a ? b : a + c` lists `a`, `b` and `c`. -/
def choice : Expr :=
  .conditional (.variable "a") (.variable "b") (.binary .add (.variable "a") (.variable "c"))

/-- Only one branch is evaluated. Unlisted names have no effect, nor has an undefined variable of
the other branch. -/
theorem eval_skips_branch :
    let few := (Record.ofList [("a", Value.bool true), ("b", .string "yes")]).get?
    let many := (Record.ofList [("z", Value.null), ("b", .string "yes"), ("a", .bool true)]).get?
    let other := (Record.ofList [("a", Value.bool false)]).get?
    choice.freeVariables = ["a", "b", "c"] ∧ few "z" ≠ many "z" ∧
      choice.eval few = choice.eval many ∧ choice.eval few = .ok (.string "yes") ∧
      choice.eval other = .error (.unknownVariable "c") ∧ "c" ∈ choice.freeVariables ∧
        other "c" = none := by
  intro few many other
  obtain ⟨-, same, missed⟩ := choice.eval_determined_by_freeVariables
  have listed : choice.freeVariables = ["a", "b", "c"] := by decide
  have agree : ∀ name ∈ choice.freeVariables, few name = many name := by
    rw [listed]
    simp only [List.forall_mem_cons]
    exact ⟨rfl, rfl, rfl, nofun⟩
  have failed : choice.eval other = .error (.unknownVariable "c") := rfl
  exact ⟨listed, nofun, same few many agree, rfl, failed, missed other "c" failed⟩

end Sample

end Formwork
