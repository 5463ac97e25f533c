import Formwork.Proofs.Expr.Variables

/-!
# Evaluation over a larger scope

Evaluation is monotone in the scope: values and errors are kept when entries are added, except for
an unknown variable that becomes defined.
-/

namespace Formwork

/-- Every name of the scope has its value in the larger one too, which may have more names. -/
def Scope.Extends (larger scope : Scope) : Prop :=
  ∀ name value, scope name = some value → larger name = some value

theorem Scope.extends_insert {r : Record Value} {key : String} {added : Value}
    (new : r.get? key = none) : Scope.Extends (r.insert key added).get? r.get? := by
  intro name value found
  have other : key ≠ name := by
    rintro rfl
    rw [new] at found
    cases found
  rw [Record.get?_insert, if_neg other, found]

/-- The answer is not an unknown variable that the larger scope defines. -/
def Scope.Settles {α : Type} (larger : Scope) (answer : Except ExpressionError α) : Prop :=
  ∀ name, answer = .error (.unknownVariable name) → larger name = none

theorem Scope.Settles.bind_eq {α β : Type} {larger : Scope} {m m' : Except ExpressionError α}
    {f f' : α → Except ExpressionError β} (settled : larger.Settles (m >>= f))
    (first : larger.Settles m → m' = m) (next : ∀ a, larger.Settles (f a) → f' a = f a) :
    (m' >>= f') = (m >>= f) := by
  have same : m' = m := by
    refine first fun name failed => settled name ?_
    rw [failed]
    rfl
  rw [same]
  cases m with
  | error e => rfl
  | ok a => exact next a settled

namespace Expr

variable {scope larger : Scope}

/-- Evaluation of every subtree is unchanged over the larger scope, in the same order. -/
theorem eval_eq_of_settled (extends_scope : larger.Extends scope) {e : Expr}
    (settled : larger.Settles (e.eval scope)) : e.eval larger = e.eval scope := by
  induction e with
  | literal value => rfl
  | «variable» name =>
      cases found : scope name with
      | some value => rw [eval, eval, found, extends_scope name value found]
      | none =>
          have missed : (Expr.variable name).eval scope = .error (.unknownVariable name) := by
            rw [eval, found]
          rw [missed, eval, settled name missed]
  | member object property ih ih' =>
      refine settled.bind_eq ih fun object settled => ?_
      exact settled.bind_eq ih' fun property _ => rfl
  | unary op operand ih => exact settled.bind_eq ih fun value _ => rfl
  | binary op left right ih ih' =>
      refine settled.bind_eq ih fun left settled => ?_
      exact settled.bind_eq ih' fun right _ => rfl
  | logical op left right ih ih' =>
      refine settled.bind_eq ih fun left settled => ?_
      split
      · rfl
      · next undecided =>
        rw [if_neg undecided] at settled
        exact ih' settled
  | conditional test consequent alternate ih ih' ih'' =>
      refine settled.bind_eq ih fun test settled => ?_
      split
      · next holds =>
        rw [if_pos holds] at settled
        exact ih' settled
      · next fails =>
        rw [if_neg fails] at settled
        exact ih'' settled

/-- Extending the scope changes no result. Values and errors stay, and an unknown variable stays
unknown as long as the larger scope lacks it. -/
theorem eval_of_extends (e : Expr) (extends_scope : larger.Extends scope) :
    (∀ value, e.eval scope = .ok value → e.eval larger = .ok value) ∧
    (∀ error, e.eval scope = .error error → (∀ name, error ≠ .unknownVariable name) →
      e.eval larger = .error error) ∧
    ∀ name, e.eval scope = .error (.unknownVariable name) → larger name = none →
      e.eval larger = .error (.unknownVariable name) := by
  refine ⟨fun value given => ?_, fun error given known => ?_, fun name given missing => ?_⟩
  · rw [← given]
    refine eval_eq_of_settled extends_scope fun name missed => ?_
    rw [given] at missed
    cases missed
  · rw [← given]
    refine eval_eq_of_settled extends_scope fun name missed => ?_
    rw [given] at missed
    cases missed
    exact (known name rfl).elim
  · rw [← given]
    refine eval_eq_of_settled extends_scope fun other missed => ?_
    rw [given] at missed
    cases missed
    exact missing

end Expr

namespace Sample

/-- `a ? b : n . k + c` -/
def guarded : Expr :=
  .conditional (.variable "a") (.variable "b")
    (.binary .add (.member (.variable "n") (.literal (.string "k"))) (.variable "c"))

/-- A new entry `c` has no effect when the branch with `c` is skipped, when that branch fails before
`c`, or when `b` is unknown. -/
theorem eval_of_extends_guarded :
    let chosen : Record Value := .ofList [("a", .bool true), ("b", .string "yes")]
    let refused : Record Value := .ofList [("a", .bool false), ("n", .null)]
    let missed : Record Value := .ofList [("a", .bool true)]
    let enlarged (r : Record Value) : Scope := (r.insert "c" (.bool true)).get?
    guarded.eval chosen.get? = .ok (.string "yes") ∧
      guarded.eval (enlarged chosen) = .ok (.string "yes") ∧
      guarded.eval refused.get? = .error (.invalidMember "k" "null") ∧
      guarded.eval (enlarged refused) = .error (.invalidMember "k" "null") ∧
      guarded.eval missed.get? = .error (.unknownVariable "b") ∧ enlarged missed "b" = none ∧
      guarded.eval (enlarged missed) = .error (.unknownVariable "b") := by
  intro chosen refused missed enlarged
  have enlarges (r : Record Value) (new : r.get? "c" = none) : (enlarged r).Extends r.get? :=
    Scope.extends_insert new
  obtain ⟨value, -, -⟩ := guarded.eval_of_extends (enlarges chosen rfl)
  obtain ⟨-, error, -⟩ := guarded.eval_of_extends (enlarges refused rfl)
  obtain ⟨-, -, unknown⟩ := guarded.eval_of_extends (enlarges missed rfl)
  exact ⟨rfl, value _ rfl, rfl, error _ rfl nofun, rfl, rfl, unknown "b" rfl rfl⟩

end Sample

end Formwork
