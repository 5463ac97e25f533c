import Mathlib.Data.List.Forall2
import Mathlib.Data.List.Perm.Subperm
import Formwork.Proofs.Value.WellFormed

/-!
# Equality of values

Structural equality is an equivalence on well-formed values. Strict equality compares numbers by
magnitude at the top, and loose equality also converts between numbers, texts and truth values.
-/

namespace Formwork

theorem Number.same_refl (n : Number) : n.same n = true := by
  cases n <;> simp [same, Finite.eq]

theorem Number.same_comm (m n : Number) : m.same n = n.same m := by
  cases m <;> cases n <;> simp only [same, Finite.eq, Bool.beq_comm]

theorem Number.same_trans {k m n : Number} (first : k.same m = true) (second : m.same n = true) :
    k.same n = true := by
  cases k <;> cases m <;> cases n <;> simp_all [same, Finite.eq]

namespace Value

/-! ## Contents -/

theorem forall₂_chain {α : Type} {R : α → α → Prop} {xs ys zs : List α}
    (chain : ∀ x ∈ xs, ∀ y z, R x y → R y z → R x z) (left : List.Forall₂ R xs ys)
    (right : List.Forall₂ R ys zs) : List.Forall₂ R xs zs := by
  induction left generalizing zs with
  | nil => exact right
  | cons first _ ih =>
      cases right with
      | cons first' rest' =>
          exact .cons (chain _ List.mem_cons_self _ _ first first')
            (ih (fun x mem => chain x (List.mem_cons_of_mem _ mem)) rest')

section Same

variable {a b c : Value} {xs ys : List Value} {ms ns : Entries Value}

theorem sameItems_iff :
    sameItems xs ys = true ↔ List.Forall₂ (fun x y => x.same y = true) xs ys := by
  induction xs generalizing ys with
  | nil => cases ys <;> simp [sameItems]
  | cons x xs ih => cases ys <;> simp [sameItems, ih]

theorem sameMembers_iff :
    sameMembers ms ns = true ↔
      ∀ m ∈ ms, ∃ w, Entries.get? m.1 ns = some w ∧ m.2.same w = true := by
  induction ms with
  | nil => simp [sameMembers]
  | cons m ms ih =>
      obtain ⟨k, v⟩ := m
      rw [sameMembers, Bool.and_eq_true, ih, List.forall_mem_cons]
      refine and_congr_left fun _ => ?_
      cases Entries.get? k ns <;> simp

def isPlain : Value → Bool
  | .null | .bool _ | .string _ => true
  | .number _ | .array _ | .object _ => false

theorem plain_same_iff (plain : a.isPlain = true) : a.same b = true ↔ a = b := by
  cases a with
  | null | bool | string => cases b <;> simp [same]
  | number | array | object => cases plain

theorem number_same_iff {m : Number} :
    (number m).same b = true ↔ ∃ n, b = .number n ∧ m.same n = true := by
  cases b <;> simp [same]

theorem array_same_iff :
    (array xs).same b = true ↔
      ∃ ys, b = .array ys ∧ List.Forall₂ (fun x y => x.same y = true) xs ys := by
  cases b <;> simp [same, sameItems_iff]

theorem object_same_iff :
    (object ms).same b = true ↔
      ∃ ns, b = .object ns ∧ ms.length = ns.length ∧
        ∀ m ∈ ms, ∃ w, Entries.get? m.1 ns = some w ∧ m.2.same w = true := by
  cases b <;> simp [same, sameMembers_iff]

theorem same_refl (wellFormed : a.WellFormed) : a.same a = true := by
  induction wellFormed with
  | null | bool | string => exact (plain_same_iff rfl).2 rfl
  | number n => exact number_same_iff.2 ⟨n, rfl, n.same_refl⟩
  | array each ih => exact array_same_iff.2 ⟨_, rfl, List.forall₂_same.2 ih⟩
  | object distinct each ih =>
      exact object_same_iff.2 ⟨_, rfl, rfl, fun m mem =>
        ⟨m.2, Entries.get?_of_mem distinct mem, ih m mem⟩⟩

theorem keys_perm_of_partners (distinct : (Entries.keys ms).Nodup)
    (size : ms.length = ns.length)
    (partners : ∀ m ∈ ms, ∃ w, Entries.get? m.1 ns = some w ∧ m.2.same w = true) :
    (Entries.keys ms).Perm (Entries.keys ns) := by
  have subset : Entries.keys ms ⊆ Entries.keys ns := by
    intro key mem
    obtain ⟨m, m_mem, rfl⟩ := List.mem_map.1 mem
    obtain ⟨w, found, -⟩ := partners m m_mem
    exact List.mem_map.2 ⟨_, Entries.mem_of_get? found, rfl⟩
  refine (List.subperm_of_subset distinct subset).perm_of_length_le ?_
  rw [Entries.keys, Entries.keys, List.length_map, List.length_map]
  exact Nat.le_of_eq size.symm

theorem same_symm (left : a.WellFormed) (right : b.WellFormed) (same : a.same b = true) :
    b.same a = true := by
  induction left generalizing b with
  | null | bool | string =>
      cases (plain_same_iff rfl).1 same
      exact same
  | number m =>
      obtain ⟨n, rfl, alike⟩ := number_same_iff.1 same
      exact number_same_iff.2 ⟨m, rfl, Number.same_comm m n ▸ alike⟩
  | array each ih =>
      obtain ⟨ys, rfl, alike⟩ := array_same_iff.1 same
      cases right with
      | array each' =>
          have turned := ((List.forall₂_and_left _ _).2 ⟨ih, alike⟩).flip
          have paired := (List.forall₂_and_left _ _).2 ⟨each', turned⟩
          exact array_same_iff.2 ⟨_, rfl, paired.imp fun _ _ both => both.2.1 both.1 both.2.2⟩
  | @object ms distinct each ih =>
      obtain ⟨ns, rfl, size, partners⟩ := object_same_iff.1 same
      cases right with
      | object distinct' each' =>
          -- The key of `n` stands in `ms` too, and the partner of that member can only be `n`.
          refine object_same_iff.2 ⟨ms, rfl, size.symm, fun n n_mem => ?_⟩
          have key_mem := (keys_perm_of_partners distinct size partners).mem_iff.2
            (List.mem_map_of_mem n_mem)
          obtain ⟨m, m_mem, key⟩ := List.mem_map.1 key_mem
          obtain ⟨w, found, alike⟩ := partners m m_mem
          rw [key, Entries.get?_of_mem distinct' n_mem] at found
          cases found
          exact ⟨m.2, key ▸ Entries.get?_of_mem distinct m_mem, ih m m_mem (each' n n_mem) alike⟩

theorem same_trans (left : a.WellFormed) (first : a.same b = true) (second : b.same c = true) :
    a.same c = true := by
  induction left generalizing b c with
  | null | bool | string =>
      cases (plain_same_iff rfl).1 first
      exact second
  | number k =>
      obtain ⟨m, rfl, alike⟩ := number_same_iff.1 first
      obtain ⟨n, rfl, alike'⟩ := number_same_iff.1 second
      exact number_same_iff.2 ⟨n, rfl, Number.same_trans alike alike'⟩
  | array each ih =>
      obtain ⟨ys, rfl, alike⟩ := array_same_iff.1 first
      obtain ⟨zs, rfl, alike'⟩ := array_same_iff.1 second
      exact array_same_iff.2 ⟨zs, rfl,
        forall₂_chain (fun x mem _ _ => ih x mem) alike alike'⟩
  | object distinct each ih =>
      obtain ⟨ns, rfl, size, partners⟩ := object_same_iff.1 first
      obtain ⟨ps, rfl, size', partners'⟩ := object_same_iff.1 second
      refine object_same_iff.2 ⟨ps, rfl, size.trans size', fun m m_mem => ?_⟩
      obtain ⟨w, found, alike⟩ := partners m m_mem
      obtain ⟨u, found', alike'⟩ := partners' _ (Entries.mem_of_get? found)
      exact ⟨u, found', ih m m_mem alike alike'⟩

end Same

/-! ## Strict equality -/

section Strict

variable {a b c : Value}

theorem typeName_eq_of_same (same : a.same b = true) : a.typeName = b.typeName := by
  cases a with
  | null | bool | string => rw [(plain_same_iff rfl).1 same]
  | number m =>
      obtain ⟨n, rfl, -⟩ := number_same_iff.1 same
      rfl
  | array xs =>
      obtain ⟨ys, rfl, -⟩ := array_same_iff.1 same
      rfl
  | object ms =>
      obtain ⟨ns, rfl, -⟩ := object_same_iff.1 same
      rfl

theorem typeName_eq_number_iff : a.typeName = "number" ↔ ∃ n, a = .number n := by
  cases a <;> simp [typeName]

theorem typeName_eq_boolean_iff : a.typeName = "boolean" ↔ ∃ p, a = .bool p := by
  cases a <;> simp [typeName]

theorem number_strictEqual_iff {m : Number} :
    (number m).strictEqual b = true ↔ ∃ n, b = .number n ∧ m.toFinite.eq n.toFinite = true := by
  cases b <;> simp [strictEqual, same]

/-- Strict equality of values other than numbers is structural. -/
theorem strictEqual_eq_same (other : a.typeName ≠ "number") : a.strictEqual b = a.same b := by
  cases a with
  | number n => exact absurd rfl other
  | _ => rfl

theorem typeName_eq_of_strictEqual (equal : a.strictEqual b = true) : a.typeName = b.typeName := by
  by_cases number : a.typeName = "number"
  · obtain ⟨m, rfl⟩ := typeName_eq_number_iff.1 number
    obtain ⟨n, rfl, -⟩ := number_strictEqual_iff.1 equal
    rfl
  · rw [strictEqual_eq_same number] at equal
    exact typeName_eq_of_same equal

theorem strictEqual_refl (wellFormed : a.WellFormed) : a.strictEqual a = true := by
  by_cases number : a.typeName = "number"
  · obtain ⟨m, rfl⟩ := typeName_eq_number_iff.1 number
    exact number_strictEqual_iff.2 ⟨m, rfl, beq_self_eq_true _⟩
  · rw [strictEqual_eq_same number]
    exact same_refl wellFormed

theorem strictEqual_symm (left : a.WellFormed) (right : b.WellFormed)
    (equal : a.strictEqual b = true) : b.strictEqual a = true := by
  by_cases number : a.typeName = "number"
  · obtain ⟨m, rfl⟩ := typeName_eq_number_iff.1 number
    obtain ⟨n, rfl, sizes⟩ := number_strictEqual_iff.1 equal
    refine number_strictEqual_iff.2 ⟨m, rfl, ?_⟩
    rw [Finite.eq, beq_iff_eq] at sizes ⊢
    exact sizes.symm
  · have number' : b.typeName ≠ "number" := typeName_eq_of_strictEqual equal ▸ number
    rw [strictEqual_eq_same number] at equal
    rw [strictEqual_eq_same number']
    exact same_symm left right equal

theorem strictEqual_trans (left : a.WellFormed) (first : a.strictEqual b = true)
    (second : b.strictEqual c = true) : a.strictEqual c = true := by
  by_cases number : a.typeName = "number"
  · obtain ⟨k, rfl⟩ := typeName_eq_number_iff.1 number
    obtain ⟨m, rfl, sizes⟩ := number_strictEqual_iff.1 first
    obtain ⟨n, rfl, sizes'⟩ := number_strictEqual_iff.1 second
    refine number_strictEqual_iff.2 ⟨n, rfl, ?_⟩
    rw [Finite.eq, beq_iff_eq] at sizes sizes' ⊢
    exact sizes.trans sizes'
  · have number' : b.typeName ≠ "number" := typeName_eq_of_strictEqual first ▸ number
    rw [strictEqual_eq_same number] at first ⊢
    rw [strictEqual_eq_same number'] at second
    exact same_trans left first second

theorem strictEqual_comm (left : a.WellFormed) (right : b.WellFormed) :
    a.strictEqual b = b.strictEqual a :=
  Bool.eq_iff_iff.2 ⟨strictEqual_symm left right, strictEqual_symm right left⟩

end Strict

/-! ## Loose equality -/

section Loose

variable {a b : Value}

/-- The types that loose equality converts between. -/
def convertible : List String := ["number", "string", "boolean"]

theorem exists_boolAsNumber (p : Bool) : ∃ n, (bool p).boolAsNumber = .number n := by
  cases p
  · exact ⟨_, rfl⟩
  · exact ⟨_, rfl⟩

theorem exists_bool_looseEqual (p : Bool) :
    ∃ n : Number, ∀ b : Value, b.typeName ≠ "boolean" →
      (bool p).looseEqual b = (number n).looseEqual b ∧
        b.looseEqual (bool p) = b.looseEqual (number n) := by
  obtain ⟨n, is_number⟩ := exists_boolAsNumber p
  refine ⟨n, fun b other => ?_⟩
  cases b with
  | bool q => exact absurd rfl other
  | _ =>
      simp only [looseEqual, is_number]
      exact ⟨rfl, rfl⟩

theorem looseEqual_cases (left : a.typeName ≠ "boolean") (right : b.typeName ≠ "boolean") :
    (∃ n s, a = .number n ∧ b = .string s) ∨ (∃ n s, a = .string s ∧ b = .number n) ∨
      a.looseEqual b = a.strictEqual b := by
  cases a with
  | bool p => exact absurd rfl left
  | number n =>
      cases b with
      | bool q => exact absurd rfl right
      | string s => exact .inl ⟨n, s, rfl, rfl⟩
      | _ => exact .inr (.inr rfl)
  | string s =>
      cases b with
      | bool q => exact absurd rfl right
      | number n => exact .inr (.inl ⟨n, s, rfl, rfl⟩)
      | _ => exact .inr (.inr rfl)
  | _ =>
      cases b with
      | bool q => exact absurd rfl right
      | _ => exact .inr (.inr rfl)

theorem looseEqual_of_not_convertible (other : a.typeName ∉ convertible) (b : Value) :
    a.looseEqual b = a.strictEqual b ∧ b.looseEqual a = b.strictEqual a := by
  cases a with
  | bool p => exact absurd (by decide : "boolean" ∈ convertible) other
  | number n => exact absurd (by decide : "number" ∈ convertible) other
  | string s => exact absurd (by decide : "string" ∈ convertible) other
  | _ =>
      cases b with
      | bool q =>
          obtain ⟨n, is_number⟩ := exists_boolAsNumber q
          simp only [looseEqual, is_number]
          exact ⟨rfl, rfl⟩
      | _ => exact ⟨rfl, rfl⟩

theorem looseEqual_of_typeName_eq (same : a.typeName = b.typeName) :
    a.looseEqual b = a.strictEqual b := by
  cases a <;> cases b <;> first | rfl | simp [typeName] at same

/-- Within one type, and for types without conversion, loose equality is strict. -/
theorem looseEqual_eq_strictEqual
    (plain : a.typeName = b.typeName ∨ a.typeName ∉ convertible ∨ b.typeName ∉ convertible) :
    a.looseEqual b = a.strictEqual b := by
  rcases plain with same | left | right
  · exact looseEqual_of_typeName_eq same
  · exact (looseEqual_of_not_convertible left b).1
  · exact (looseEqual_of_not_convertible right a).2

theorem looseEqual_comm_of_no_bool (left : a.WellFormed) (right : b.WellFormed)
    (no_bool : a.typeName ≠ "boolean") (no_bool' : b.typeName ≠ "boolean") :
    a.looseEqual b = b.looseEqual a := by
  rcases looseEqual_cases no_bool no_bool' with ⟨n, s, rfl, rfl⟩ | ⟨n, s, rfl, rfl⟩ | strict
  · rfl
  · rfl
  · rcases looseEqual_cases no_bool' no_bool with ⟨n, s, rfl, rfl⟩ | ⟨n, s, rfl, rfl⟩ | strict'
    · rfl
    · rfl
    · rw [strict, strict', strictEqual_comm left right]

theorem looseEqual_comm (left : a.WellFormed) (right : b.WellFormed) :
    a.looseEqual b = b.looseEqual a := by
  -- A truth value on one side alone is compared as its number.
  have other : "number" ≠ "boolean" := by decide
  by_cases bool_left : a.typeName = "boolean"
  · obtain ⟨p, rfl⟩ := typeName_eq_boolean_iff.1 bool_left
    by_cases bool_right : b.typeName = "boolean"
    · rw [looseEqual_of_typeName_eq (bool_left.trans bool_right.symm),
        looseEqual_of_typeName_eq (bool_right.trans bool_left.symm), strictEqual_comm left right]
    · obtain ⟨n, converts⟩ := exists_bool_looseEqual p
      rw [(converts b bool_right).1, (converts b bool_right).2]
      exact looseEqual_comm_of_no_bool (.number n) right other bool_right
  · by_cases bool_right : b.typeName = "boolean"
    · obtain ⟨q, rfl⟩ := typeName_eq_boolean_iff.1 bool_right
      obtain ⟨n, converts⟩ := exists_bool_looseEqual q
      rw [(converts a bool_left).1, (converts a bool_left).2]
      exact looseEqual_comm_of_no_bool left (.number n) bool_left other
    · exact looseEqual_comm_of_no_bool left right bool_left bool_right

end Loose

end Value

/-! ## Operators -/

namespace BinaryOp

variable {a b c : Value}

def Holds (op : BinaryOp) (left right : Value) : Prop := op.apply left right = .ok (.bool true)

theorem answer_true_iff {r : Bool} :
    (.ok (.bool r) : Except ExpressionError Value) = .ok (.bool true) ↔ r = true := by
  simp

theorem holds_strictEqual_iff : strictEqual.Holds a b ↔ a.strictEqual b = true := answer_true_iff

theorem holds_looseEqual_iff : looseEqual.Holds a b ↔ a.looseEqual b = true := answer_true_iff

/-- Strict equality is an equivalence. Loose equality is reflexive and symmetric, is implied by
strict equality, and equals it unless the types are two different ones of number, string and
boolean. The negated operators are exact, and none of the four fails. -/
theorem equality_coherent (left : a.WellFormed) (right : b.WellFormed) :
    strictEqual.Holds a a ∧
    strictEqual.apply a b = strictEqual.apply b a ∧
    (strictEqual.Holds a b → strictEqual.Holds b c → strictEqual.Holds a c) ∧
    looseEqual.Holds a a ∧
    looseEqual.apply a b = looseEqual.apply b a ∧
    (strictEqual.Holds a b → looseEqual.Holds a b) ∧
    (¬(a.typeName ≠ b.typeName ∧ a.typeName ∈ ["number", "string", "boolean"] ∧
        b.typeName ∈ ["number", "string", "boolean"]) →
      looseEqual.apply a b = strictEqual.apply a b) ∧
    ∃ strict loose : Bool,
      strictEqual.apply a b = .ok (.bool strict) ∧ strictNotEqual.apply a b = .ok (.bool !strict) ∧
      looseEqual.apply a b = .ok (.bool loose) ∧ looseNotEqual.apply a b = .ok (.bool !loose) := by
  simp only [holds_strictEqual_iff, holds_looseEqual_iff]
  refine ⟨Value.strictEqual_refl left, ?_, Value.strictEqual_trans left, ?_, ?_, fun equal => ?_,
    fun apart => ?_, a.strictEqual b, a.looseEqual b, rfl, rfl, rfl, rfl⟩
  · rw [apply, apply, Value.strictEqual_comm left right]
  · rw [Value.looseEqual_of_typeName_eq rfl]
    exact Value.strictEqual_refl left
  · rw [apply, apply, Value.looseEqual_comm left right]
  · rw [Value.looseEqual_of_typeName_eq (Value.typeName_eq_of_strictEqual equal)]
    exact equal
  · have plain : a.typeName = b.typeName ∨ a.typeName ∉ Value.convertible ∨
        b.typeName ∉ Value.convertible := by
      by_contra differ
      rw [not_or, not_or, not_not, not_not] at differ
      exact apart differ
    rw [apply, apply, Value.looseEqual_eq_strictEqual plain]

end BinaryOp

namespace Sample

def count : String × Value := ("count", .ofInt 2)

def rows : String × Value := ("rows", .array [.string "a", .null])

theorem wellFormed_count : count.2.WellFormed := Value.wellFormed_ofInt 2

theorem wellFormed_rows : rows.2.WellFormed :=
  .array (List.forall_mem_cons.2 ⟨.string "a", List.forall_mem_singleton.2 .null⟩)

/-- Neither equality depends on the order of members. -/
theorem equality_coherent_turned :
    (Value.object [count, rows]).WellFormed ∧ (Value.object [rows, count]).WellFormed ∧
    BinaryOp.strictEqual.Holds (.object [count, rows]) (.object [rows, count]) ∧
    BinaryOp.strictEqual.Holds (.object [rows, count]) (.object [count, rows]) ∧
    BinaryOp.looseEqual.Holds (.object [count, rows]) (.object [rows, count]) := by
  have left : (Value.object [count, rows]).WellFormed :=
    .object (by decide)
      (List.forall_mem_cons.2 ⟨wellFormed_count, List.forall_mem_singleton.2 wellFormed_rows⟩)
  have right : (Value.object [rows, count]).WellFormed :=
    .object (by decide)
      (List.forall_mem_cons.2 ⟨wellFormed_rows, List.forall_mem_singleton.2 wellFormed_count⟩)
  have holds : BinaryOp.strictEqual.Holds (.object [count, rows]) (.object [rows, count]) := rfl
  obtain ⟨-, swap, -, -, -, looser, -⟩ := BinaryOp.equality_coherent (c := .null) left right
  exact ⟨left, right, holds, swap.symm.trans holds, looser holds⟩

end Sample

end Formwork
