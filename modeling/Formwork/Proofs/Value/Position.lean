import Formwork.Proofs.Value.Arithmetic

/-!
# Positions

Texts and arrays are indexed by the decimal text of a number. A nonnegative integer is read back
from its text, whereas the text of a double contains a point or an exponent. Integers in range
select their element, all others null.
-/

namespace Formwork

/-! ## Reading a position -/

namespace Value

open Decimal

variable {cs : List Char} {c : Char}

theorem position?_of_allDigits (nonempty : cs ≠ []) (digits : AllDigits cs)
    (small : digitsValue 0 cs < 18446744073709551616) :
    position? cs = some (digitsValue 0 cs) := by
  have all : cs.all Char.isDigit = true := List.all_eq_true.2 digits
  unfold position?
  split
  · next rest =>
    have plus : '+'.isDigit = true := digits '+' List.mem_cons_self
    exact absurd plus (by decide)
  · simp [all, nonempty, small]

theorem position?_of_mem (mem : c ∈ cs) (other : c.isDigit = false) (no_plus : c ≠ '+') :
    position? cs = none := by
  have stops {ds : List Char} (mem : c ∈ ds) : ds.all Char.isDigit = false :=
    List.all_eq_false.2 ⟨c, mem, by simp [other]⟩
  unfold position?
  split
  · next rest =>
    have behind : c ∈ rest := by simpa [no_plus] using mem
    simp [stops behind]
  · simp [stops mem]

end Value

/-! ## Positions of numbers -/

namespace Finite

theorem mark_mem_layout (digits : List Char) (e : Int) :
    '.' ∈ (layout .document digits e).toList ∨ 'e' ∈ (layout .document digits e).toList := by
  have mark : '.' ∈ NumberFormat.document.wholeMark.toList := by decide
  unfold layout
  simp only
  split
  · left
    split
    · simp
    · split <;> simp [mark]
  · right
    simp

theorem mark_mem_text (x : Finite) :
    '.' ∈ (x.text .document).toList ∨ 'e' ∈ (x.text .document).toList := by
  have mark : '.' ∈ NumberFormat.document.wholeMark.toList := by decide
  unfold text
  by_cases zero : x.quanta = 0
  · left
    simp [zero, mark]
  · simp only [if_neg zero, String.toList_append, List.mem_append]
    exact (mark_mem_layout _ _).imp .inr .inr

theorem exists_cons_text (x : Finite) :
    ∃ c rest, (x.text .document).toList = c :: rest ∧ (c = '-' ∨ c.isDigit = true) := by
  by_cases sign : x.negative = true
  · have front : "-".toList = ['-'] := by decide
    simp only [text, if_pos sign]
    split
    · simp only [String.toList_append, front]
      exact ⟨'-', _, rfl, .inl rfl⟩
    · simp only [String.toList_append, front]
      exact ⟨'-', _, rfl, .inl rfl⟩
  · -- Zero has a text of its own; any other is scanned as a number, from its first digit.
    by_cases zero : x.quanta = 0
    · have whole : (x.text .document).toList = ['0', '.', '0'] := by
        simp [text, zero, sign, NumberFormat.document]
      exact ⟨'0', ['.', '0'], whole, .inr (by decide)⟩
    · obtain ⟨_, ⟨⟨c, rest, text, digit, -⟩, -⟩, -⟩ :=
        exists_numeral_text (Bool.not_eq_true _ ▸ sign) zero
      exact ⟨c, rest, text, .inr digit⟩

end Finite

namespace Number

/-- The position of a number used as an index. -/
def position? : Number → Option Nat
  | .integer n _ => if 0 ≤ n then some n.toNat else none
  | .float _ => none

theorem position?_text (n : Number) : Value.position? n.text.toList = n.position? := by
  cases n with
  | integer n inRange =>
      have text : (Number.integer n inRange).text.toList = Written.numeral n :=
        Written.toList_toString n
      rw [text]
      by_cases negative : n < 0
      · have sign : '-' ∈ Written.numeral n := by simp [Written.numeral, negative]
        simp [position?, Value.position?_of_mem sign, negative]
      · have digits := Value.position?_of_allDigits Nat.toDigits_ne_nil
          (Decimal.allDigits_toDigits n.natAbs)
        rw [Decimal.digitsValue_toDigits] at digits
        have natAbs_eq : n.natAbs = n.toNat := by omega
        rw [Written.numeral, if_neg negative, digits (by omega), natAbs_eq]
        simp [position?, Int.not_lt.1 negative]
  | float x =>
      rcases x.mark_mem_text with point | exponent
      · exact Value.position?_of_mem point (by decide) (by decide)
      · exact Value.position?_of_mem exponent (by decide) (by decide)

theorem exists_cons_text (n : Number) :
    ∃ c rest, n.text.toList = c :: rest ∧ (c = '-' ∨ c.isDigit = true) := by
  cases n with
  | integer n inRange =>
      have text : (Number.integer n inRange).text.toList = Written.numeral n :=
        Written.toList_toString n
      rw [text]
      exact Written.exists_cons_numeral n
  | float x => exact x.exists_cons_text

theorem text_ne_length (n : Number) : n.text ≠ "length" := by
  intro length
  obtain ⟨c, rest, text, number⟩ := n.exists_cons_text
  have letters : "length".toList = ['l', 'e', 'n', 'g', 't', 'h'] := by decide
  rw [length, letters] at text
  cases text
  simp at number

end Number

/-! ## Elements -/

namespace Value

/-- The elements of a container: the items of an array, the characters of a text. -/
inductive Elements : Value → List Value → Prop where
  | array (items : List Value) : Elements (.array items) items
  | string (s : String) :
      Elements (.string s) (s.toList.map fun c => .string (String.singleton c))

def element (vs : List Value) (n : Number) : Value := (n.position?.bind (vs[·]?)).getD .null

variable {x : Value} {vs : List Value}

theorem access_length (elements : x.Elements vs) :
    x.access (.string "length") = .ok (ofInt vs.length) := by
  cases elements with
  | array items => simp [access, display]
  | string s => simp [access, display]

theorem access_number (elements : x.Elements vs) (n : Number) :
    x.access (.number n) = .ok (element vs n) := by
  have other : (Value.number n).display ≠ "length" := n.text_ne_length
  have read : position? (Value.number n).display.toList = n.position? := n.position?_text
  cases elements with
  | array items => simp [access, other, read, element]
  | string s =>
      simp only [access, if_neg other, read, element]
      cases n.position? with
      | none => rfl
      | some i => cases found : s.toList[i]? <;> simp [found]

theorem element_integer {i : Nat} (inside : i < vs.length)
    {inRange : -9223372036854775808 ≤ (i : Int) ∧ (i : Int) < 18446744073709551616} :
    element vs (.integer i inRange) = vs[i] := by
  simp [element, Number.position?, inside]

theorem element_outside {n : Int} (outside : ¬(0 ≤ n ∧ n < vs.length))
    {inRange : -9223372036854775808 ≤ n ∧ n < 18446744073709551616} :
    element vs (.integer n inRange) = .null := by
  by_cases positive : 0 ≤ n
  · have beyond : vs[n.toNat]? = none := List.getElem?_eq_none (by omega)
    simp [element, Number.position?, positive, beyond]
  · simp [element, Number.position?, positive]

end Value

/-! ## Expressions -/

namespace Expr

variable {scope : Scope} {object property e : Expr} {x v : Value} {vs : List Value}

theorem eval_member (object_given : object.eval scope = .ok x)
    (property_given : property.eval scope = .ok v) :
    (member object property).eval scope = x.access v := by
  rw [eval, object_given, property_given]
  rfl

theorem eval_index (elements : x.Elements vs) (object_given : object.eval scope = .ok x)
    {n : Number} (index_given : property.eval scope = .ok (.number n)) :
    (member object property).eval scope = .ok (Value.element vs n) := by
  rw [eval_member object_given index_given, Value.access_number elements]

/-- A tree that sums the trees in order, with any grouping; the empty text for none. -/
inductive Adds : List Expr → Expr → Prop where
  | none : Adds [] (.literal (.string ""))
  | one (e : Expr) : Adds [e] e
  | both {es fs : List Expr} {e f : Expr} (left : Adds es e) (right : Adds fs f) :
      Adds (es ++ fs) (.binary .add e f)

theorem Adds.eval_eq {es : List Expr} (adds : Adds es e) {texts : List String}
    (given : List.Forall₂ (fun text e => e.eval scope = .ok (.string text)) texts es) :
    e.eval scope = .ok (.string (String.join texts)) := by
  -- Along the grouping: the texts are split where the trees are.
  induction adds generalizing texts with
  | none =>
      cases given
      rfl
  | one e =>
      obtain ⟨text, _, is_text, behind, rfl⟩ := List.forall₂_cons_right_iff.1 given
      cases behind
      simp [is_text]
  | @both es fs e f _ _ left right =>
      have first := left (List.forall₂_take_append texts es fs given)
      have second := right (List.forall₂_drop_append texts es fs given)
      rw [eval_binary .add first second, ← List.take_append_drop es.length texts,
        String.join_append]
      simp [BinaryOp.apply, BinaryOp.sum, Value.display]

theorem characters_given {s : String} (object_given : object.eval scope = .ok (.string s))
    {indices : List Expr}
    (counted : List.Forall₂ (fun (i : Nat) index => index.Gives scope i)
      (List.range s.toList.length) indices) :
    List.Forall₂ (fun text e => e.eval scope = .ok (.string text))
      (s.toList.map String.singleton) (indices.map (member object)) := by
  rw [List.forall₂_map_left_iff, List.forall₂_map_right_iff]
  obtain ⟨same_length, counts⟩ := List.forall₂_iff_get.1 counted
  rw [List.length_range] at same_length
  refine List.forall₂_iff_get.2 ⟨same_length, fun i inside inside' => ?_⟩
  obtain ⟨inRange, index_given⟩ := counts i (by simpa using inside) inside'
  simp only [List.get_eq_getElem, List.getElem_range] at inRange index_given ⊢
  rw [eval_index (.string s) object_given index_given, Value.element_integer (by simpa using inside)]
  simp

/-- Texts and arrays have a length. Integers from zero to below it select the element at that
position, a text of one character for texts; all other integers of 64 bits select null.
Concatenating the characters of a text gives the text. -/
theorem index_within_length (elements : x.Elements vs) (object_given : object.eval scope = .ok x) :
    (member object (.literal (.string "length"))).eval scope = .ok (.ofInt vs.length) ∧
    (∀ (n : Int) (index : Expr), index.Gives scope n →
      (∀ (i : Nat) (inside : i < vs.length), n = i →
        (member object index).eval scope = .ok vs[i]) ∧
      (¬(0 ≤ n ∧ n < vs.length) → (member object index).eval scope = .ok .null)) ∧
    (∀ (s : String) (indices : List Expr) (sum : Expr), x = .string s →
      List.Forall₂ (fun (i : Nat) index => index.Gives scope i)
        (List.range s.toList.length) indices →
      Adds (indices.map (member object)) sum → sum.eval scope = .ok (.string s)) := by
  refine ⟨?_, fun n index ⟨inRange, index_given⟩ => ⟨?_, fun outside => ?_⟩, ?_⟩
  · rw [eval_member object_given rfl, Value.access_length elements]
  · rintro i inside rfl
    rw [eval_index elements object_given index_given, Value.element_integer inside]
  · rw [eval_index elements object_given index_given, Value.element_outside outside]
  · rintro s indices sum rfl counted adds
    have joined : String.join (s.toList.map String.singleton) = s := by
      simp [← String.toList_inj, List.flatMap_map]
    rw [adds.eval_eq (characters_given object_given counted), joined]

end Expr

namespace Sample

open Formwork.Expr

/-- A text of three characters in seven bytes. -/
theorem index_within_length_of_text :
    let scope : Scope := fun _ => none
    let object : Expr := .literal (.string "aé😀")
    let index (n : Int) : Expr := .literal (.ofInt n)
    let sum := binary .add (binary .add (member object (index 0)) (member object (index 1)))
      (member object (index 2))
    (member object (.literal (.string "length"))).eval scope = .ok (.ofInt 3) ∧
    (member object (index 1)).eval scope = .ok (.string "é") ∧
    (member object (index (-9223372036854775808))).eval scope = .ok .null ∧
    (member object (index 18446744073709551615)).eval scope = .ok .null ∧
    sum.eval scope = .ok (.string "aé😀") := by
  intro scope object index sum
  have object_given : object.eval scope = .ok (.string "aé😀") := rfl
  obtain ⟨length, select, join⟩ := index_within_length (.string "aé😀") object_given
  have characters : "aé😀".toList = ['a', 'é', '😀'] := by decide
  refine ⟨?_, ?_, ?_, ?_, ?_⟩
  · simpa [characters] using length
  · have second := (select 1 (index 1) ⟨by decide, rfl⟩).1 1 (by simp [characters]) rfl
    simpa [characters] using second
  · exact (select _ _ ⟨by decide, rfl⟩).2 (by decide)
  · exact (select _ _ ⟨by decide, rfl⟩).2 (by simp [characters])
  · apply join "aé😀" [index 0, index 1, index 2] sum rfl
    · rw [characters]
      exact .cons ⟨by decide, rfl⟩ (.cons ⟨by decide, rfl⟩ (.cons ⟨by decide, rfl⟩ .nil))
    · exact .both (.both (.one _) (.one _)) (.one _)

end Sample

end Formwork
