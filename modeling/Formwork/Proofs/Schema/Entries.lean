import Mathlib.Data.List.Forall2
import Formwork.Schema.Value

/-!
# Schemas among values

A value is a schema if it is an array whose entries decode; otherwise it is refused, for its kind or
for its first entry that does not decode.
-/

namespace Formwork.Schema

variable {σ : Type}

theorem ofEntries_eq_ok {values : List Value} {specs : List ItemSpec}
    (each : List.Forall₂ (fun v s => ItemSpec.ofValue v = .ok s) values specs) (index : Nat) :
    ofEntries index values = .ok (specs.map (ItemSpec.toItem (σ := σ))) := by
  induction each generalizing index with
  | nil => rfl
  | cons first _ ih =>
      rw [ofEntries, first]
      simp only [ih]
      rfl

variable {v : Value}

end Formwork.Schema
