import Mathlib.Data.List.TakeWhile
import Formwork.Proofs.Number.Nearest
import Formwork.Proofs.Number.Text
import Formwork.Value.LeadingInteger

/-!
# The leading integer of a text

The integer reading of a text is determined by the maximal sign and digits after its leading white
space: the exact integer in the signed range, the nearest double beyond it, and null without digits
or above the largest double.
-/

namespace Formwork

/-- The parts of a text: white space, an optional sign, digits, and the rest. -/
structure Front where
  blank : List Char
  sign : Option Char
  digits : List Char
  rest : List Char

namespace Front

def negative (f : Front) : Bool := f.sign == some '-'

def magnitude (f : Front) : Nat := Nat.ofDigitChars 10 f.digits 0

def number (f : Front) : Int := if f.negative then -f.magnitude else f.magnitude

/-- The parts make up the text and are maximal. -/
structure Cuts (f : Front) (s : String) : Prop where
  text : s.toList = f.blank ++ (f.sign.toList ++ (f.digits ++ f.rest))
  blank : ∀ c ∈ f.blank, Text.isBlank c = true
  blank_ends : ∀ c ∈ (f.sign.toList ++ (f.digits ++ f.rest)).head?, Text.isBlank c = false
  sign : ∀ c ∈ f.sign, c = '-' ∨ c = '+'
  sign_ends : f.sign = none → ∀ c ∈ (f.digits ++ f.rest).head?, c ≠ '-' ∧ c ≠ '+'
  digits : ∀ c ∈ f.digits, c.isDigit = true
  digits_end : ∀ c ∈ f.rest.head?, c.isDigit = false

variable {f g : Front} {s t : String}

theorem head?_dropWhile_eq_false {p : Char → Bool} {cs : List Char} :
    ∀ c ∈ (cs.dropWhile p).head?, p c = false := by
  intro c first
  have kept := List.head?_dropWhile_not p cs
  rw [first] at kept
  simpa using kept

theorem exists_sign (cs : List Char) :
    ∃ (sign : Option Char) (rest : List Char), cs = sign.toList ++ rest ∧
      (∀ c ∈ sign, c = '-' ∨ c = '+') ∧
      (sign = none → ∀ c ∈ rest.head?, c ≠ '-' ∧ c ≠ '+') := by
  by_cases signed : ∃ c ∈ cs.head?, c = '-' ∨ c = '+'
  · obtain ⟨c, first, is_sign⟩ := signed
    obtain ⟨rest, rfl⟩ := List.head?_eq_some_iff.1 first
    refine ⟨some c, rest, rfl, ?_, nofun⟩
    rintro _ ⟨⟩
    exact is_sign
  · simp only [not_exists, not_and, not_or] at signed
    exact ⟨none, cs, rfl, nofun, fun _ => signed⟩

theorem exists_cuts (s : String) : ∃ f : Front, f.Cuts s := by
  obtain ⟨sign, rest, behind_blank, is_sign, no_sign⟩ :=
    exists_sign (s.toList.dropWhile Text.isBlank)
  have digits_and_rest := List.takeWhile_append_dropWhile (p := Char.isDigit) (l := rest)
  refine ⟨⟨s.toList.takeWhile Text.isBlank, sign, rest.takeWhile Char.isDigit,
    rest.dropWhile Char.isDigit⟩, ?_, ?_, ?_, is_sign, ?_, ?_, head?_dropWhile_eq_false⟩
  · simp only
    rw [digits_and_rest, ← behind_blank, List.takeWhile_append_dropWhile]
  · exact fun c mem => List.mem_takeWhile_imp mem
  · simp only
    rw [digits_and_rest, ← behind_blank]
    exact head?_dropWhile_eq_false
  · simp only
    rw [digits_and_rest]
    exact no_sign
  · exact fun c mem => List.mem_takeWhile_imp mem

theorem Cuts.splitSign_eq (cuts : f.Cuts s) :
    Value.splitSign (f.sign.toList ++ (f.digits ++ f.rest)) =
      (f.negative, f.digits ++ f.rest) := by
  have is_sign := cuts.sign
  have no_sign := cuts.sign_ends
  obtain ⟨blank, sign, digits, rest⟩ := f
  cases sign with
  | some c =>
      rcases is_sign c rfl with rfl | rfl <;> rfl
  | none =>
      have unsigned := no_sign rfl
      change Value.splitSign (digits ++ rest) = (false, digits ++ rest)
      generalize digits ++ rest = cs at unsigned
      unfold Value.splitSign
      split
      · exact absurd rfl (unsigned _ rfl).1
      · exact absurd rfl (unsigned _ rfl).2
      · rfl

theorem Cuts.leadingInteger_eq (cuts : f.Cuts s) :
    (Value.string s).leadingInteger =
      if f.digits = [] then .null else Value.ofMagnitude f.negative f.magnitude := by
  have no_blank : Text.trimStart s.toList = f.sign.toList ++ (f.digits ++ f.rest) := by
    rw [cuts.text]
    exact (span_append cuts.blank cuts.blank_ends).2
  have digits := (span_append cuts.digits cuts.digits_end).1
  change Value.leadingIntegerOfText s = _
  simp only [Value.leadingIntegerOfText, no_blank, cuts.splitSign_eq, digits,
    Decimal.digitsValue_eq, List.isEmpty_iff]
  rfl

theorem magnitude_of_digits_eq_nil (none_at_all : f.digits = []) : f.magnitude = 0 := by
  rw [magnitude, none_at_all, Nat.ofDigitChars_nil]

theorem cast_number (f : Front) : (f.number : ℚ) = Finite.withSign f.negative f.magnitude := by
  unfold number Finite.withSign
  split <;> push_cast <;> rfl

end Front

namespace Value

variable {negative : Bool} {n : Nat}

theorem ofMagnitude_of_le (negative : Bool) (small : n ≤ 9223372036854775807) :
    ∃ inRange, ofMagnitude negative n =
      .number (.integer (if negative then -n else n) inRange) := by
  have inRange : -9223372036854775808 ≤ (if negative = true then -(n : Int) else n) ∧
      (if negative = true then -(n : Int) else n) < 18446744073709551616 := by
    cases negative <;> simp <;> omega
  refine ⟨inRange, ?_⟩
  rw [ofMagnitude, if_pos (Nat.lt_succ_of_le small), ofInt, dif_pos inRange]

theorem exists_ofMagnitude_eq (negative : Bool) (large : 9223372036854775807 < n)
    (small : n < overflow) :
    ∃ x : Finite, x.IsNearest (Finite.withSign negative n) ∧
      ofMagnitude negative n = ofBinary64 (.finite x) := by
  obtain ⟨x, read, -, nearest⟩ := Decimal.exists_nearest negative small
  refine ⟨x, nearest, ?_⟩
  rw [ofMagnitude, if_neg (by omega), read]

theorem ofMagnitude_of_overflow (negative : Bool) (large : overflow ≤ n) :
    ofMagnitude negative n = .null := by
  have beyond := lt_overflow (n := 9223372036854775808) (by decide)
  rw [ofMagnitude, if_neg (by omega), Decimal.toBinary64_of_overflow negative large]
  rfl

theorem ofBinary64_finite_ne_null (x : Finite) : ofBinary64 (.finite x) ≠ .null := by
  intro null
  rw [ofBinary64] at null
  split at null
  · cases null
  · cases null

theorem ofMagnitude_eq_null_iff (negative : Bool) (n : Nat) :
    ofMagnitude negative n = .null ↔ overflow ≤ n := by
  refine ⟨fun null => ?_, ofMagnitude_of_overflow negative⟩
  by_contra! small
  rcases Nat.lt_or_ge 9223372036854775807 n with large | fits
  · obtain ⟨x, -, read⟩ := exists_ofMagnitude_eq negative large small
    exact ofBinary64_finite_ne_null x (read.symm.trans null)
  · obtain ⟨_, read⟩ := ofMagnitude_of_le negative fits
    rw [read] at null
    cases null

/-- The integer reading of a text is determined by its leading sign and digits. It is null without
digits or beyond the largest double, the exact integer within the signed range, and the nearest
double otherwise. -/
theorem leadingInteger_at_front (s : String) :
    (∃ f : Front, f.Cuts s) ∧ ∀ f : Front, f.Cuts s →
      ((string s).leadingInteger = .null ↔ f.digits = [] ∨ overflow ≤ f.magnitude) ∧
      (f.digits ≠ [] → f.magnitude ≤ 9223372036854775807 → ∃ inRange,
        (string s).leadingInteger = .number (.integer f.number inRange)) ∧
      (9223372036854775807 < f.magnitude → f.magnitude < overflow → ∃ x : Finite,
        x.IsNearest f.number ∧ (string s).leadingInteger = ofBinary64 (.finite x)) ∧
      ∀ (t : String) (g : Front), g.Cuts t → g.sign = f.sign → g.digits = f.digits →
        (string t).leadingInteger = (string s).leadingInteger := by
  refine ⟨Front.exists_cuts s, fun f cuts => ?_⟩
  have reading := cuts.leadingInteger_eq
  refine ⟨?_, fun digits small => ?_, fun large small => ?_, fun t g cuts' sign digits => ?_⟩
  · rw [reading]
    split
    · next none_at_all => exact iff_of_true rfl (.inl none_at_all)
    · next digits => rw [ofMagnitude_eq_null_iff, or_iff_right digits]
  · rw [reading, if_neg digits]
    exact ofMagnitude_of_le f.negative small
  · have digits : f.digits ≠ [] := by
      intro none_at_all
      rw [Front.magnitude_of_digits_eq_nil none_at_all] at large
      exact absurd large (by decide)
    rw [reading, if_neg digits, Front.cast_number]
    exact exists_ofMagnitude_eq f.negative large small
  · rw [reading, cuts'.leadingInteger_eq, Front.negative, Front.negative, Front.magnitude,
      Front.magnitude, sign, digits]

end Value

namespace Sample

open Value

def longFront : Front where
  blank := [' ', '\t']
  sign := some '-'
  digits := ['0', '0', '9', '2', '2', '3', '3', '7', '2', '0', '3', '6', '8', '5', '4', '7', '7', '5',
    '8', '0', '8']
  rest := ['p', 'x']

theorem longFront_cuts : longFront.Cuts " \t-009223372036854775808px" where
  text := by decide
  blank := List.all_eq_true.1 (by decide)
  blank_ends := by
    rintro _ ⟨⟩
    decide
  sign := by
    rintro _ ⟨⟩
    exact .inl rfl
  sign_ends := nofun
  digits := List.all_eq_true.1 (by decide)
  digits_end := by
    rintro _ ⟨⟩
    decide

/-- Beyond the signed range, with leading zeros and a sign, the reading is a double, independent of
the surrounding text. -/
theorem leadingInteger_at_front_beyond :
    longFront.Cuts " \t-009223372036854775808px" ∧
    { longFront with blank := [], rest := [] }.Cuts "-009223372036854775808" ∧
    9223372036854775807 < longFront.magnitude ∧ longFront.magnitude < overflow ∧
    (∃ x : Finite, x.IsNearest longFront.number ∧
      (Value.string " \t-009223372036854775808px").leadingInteger = ofBinary64 (.finite x)) ∧
    (Value.string "-009223372036854775808").leadingInteger =
      (Value.string " \t-009223372036854775808px").leadingInteger := by
  have bare : Front.Cuts { longFront with blank := [], rest := [] } "-009223372036854775808" :=
    { longFront_cuts with
      text := by decide
      blank := nofun
      digits_end := nofun }
  have large : 9223372036854775807 < longFront.magnitude := by decide
  have small : longFront.magnitude < overflow := lt_overflow (by decide)
  have reading := (leadingInteger_at_front " \t-009223372036854775808px").2 longFront longFront_cuts
  exact ⟨longFront_cuts, bare, large, small, reading.2.2.1 large small,
    reading.2.2.2 _ _ bare rfl rfl⟩

end Sample

end Formwork
