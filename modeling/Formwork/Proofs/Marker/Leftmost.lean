import Formwork.Marker
import Formwork.Proofs.Expr.Delimiter
import Formwork.Proofs.Number.Text

/-!
# The leftmost marker

Parsing tries a marker at every `#` from the left. It finds the leftmost marker of the text whenever
there is one.
-/

namespace Formwork.Marker

open Text

variable {name raw cs here : List Char} {m : Marker}

/-! ## Arguments -/

theorem splitAt_eq (separator : Char) (cs : List Char) :
    splitAt separator cs = cs.splitOn separator := by
  induction cs with
  | nil => rfl
  | cons c rest ih =>
      rw [splitAt, ih]
      unfold List.splitOn
      rw [List.splitOnP_cons_eq_if_modifyHead]
      by_cases is_separator : c = separator
      · simp [is_separator]
      · obtain ⟨piece, pieces, split⟩ :=
          List.exists_cons_of_ne_nil (List.splitOnP_ne_nil (· == separator) rest)
        simp [is_separator, split]

theorem arguments_eq (raw : List Char) :
    arguments raw =
      if Blank raw then [] else (raw.splitOn ',').map fun piece => String.ofList (trim piece) := by
  by_cases blank : Blank raw
  · rw [arguments, if_pos blank, if_pos (List.all_eq_true.2 blank)]
  · rw [arguments, if_neg blank, if_neg fun all => blank (List.all_eq_true.1 all), splitAt_eq]

/-! ## A marker in front of a text -/

/-- The text starts with `#`, a name, and an argument list in parentheses. -/
structure Opens (name raw cs : List Char) : Prop where
  named : name ≠ []
  letters : ∀ c ∈ name, isWord c = true
  unclosed : ')' ∉ raw
  text : '#' :: (name ++ '(' :: (raw ++ [')'])) <+: cs

def Marked (cs : List Char) : Prop := ∃ name raw, Opens name raw cs

def front? : List Char → Option Marker
  | [] => none
  | c :: rest => if c = '#' then readBody? rest else none

theorem find?_cons (c : Char) (rest : List Char) :
    find? (c :: rest) = (front? (c :: rest)).or (find? rest) := by
  rw [find?, front?]
  split
  · cases readBody? rest <;> rfl
  · rfl

theorem readBody?_append (named : name ≠ []) (letters : ∀ c ∈ name, isWord c = true)
    (unclosed : ')' ∉ raw) (behind : List Char) :
    readBody? (name ++ '(' :: (raw ++ ')' :: behind)) =
      some ⟨String.ofList name, arguments raw⟩ := by
  have name_ends : ∀ c ∈ ('(' :: (raw ++ ')' :: behind)).head?, isWord c = false := by
    rintro c ⟨⟩
    decide
  have inside : ∀ c ∈ raw, decide (c ≠ ')') = true := by
    intro c mem
    exact decide_eq_true fun closing => unclosed (closing ▸ mem)
  have raw_ends : ∀ c ∈ (')' :: behind).head?, decide (c ≠ ')') = false := by
    rintro c ⟨⟩
    decide
  obtain ⟨name_first, left⟩ := span_append letters name_ends
  have raw_first := (span_append inside raw_ends).1
  rw [readBody?, left, name_first]
  show (if (name.isEmpty || (List.takeWhile (· ≠ ')') _).length == _) = true then none
    else some (Marker.mk _ (arguments (List.takeWhile (· ≠ ')') _)))) = _
  rw [raw_first]
  simp [named]

theorem exists_closed {rest : List Char}
    (shorter : (rest.takeWhile (· ≠ ')')).length ≠ rest.length) :
    ∃ behind, rest = rest.takeWhile (· ≠ ')') ++ ')' :: behind := by
  have whole := List.takeWhile_append_dropWhile (p := (· ≠ ')')) (l := rest)
  have stopped := List.head?_dropWhile_not (· ≠ ')') rest
  cases left : rest.dropWhile (· ≠ ')') with
  | nil =>
      rw [left, List.append_nil] at whole
      exact (shorter (congrArg List.length whole)).elim
  | cons c behind =>
      rw [left] at stopped whole
      obtain rfl : c = ')' := by simpa using stopped
      exact ⟨behind, whole.symm⟩

theorem exists_of_readBody? (read : readBody? cs = some m) :
    ∃ name raw, Opens name raw ('#' :: cs) ∧ m = ⟨String.ofList name, arguments raw⟩ := by
  unfold readBody? at read
  split at read
  · next rest name_ends =>
    simp only [Option.ite_none_left_eq_some, Bool.or_eq_true, List.isEmpty_iff, beq_iff_eq,
      not_or, Option.some.injEq] at read
    obtain ⟨⟨named, shorter⟩, rfl⟩ := read
    obtain ⟨behind, closed⟩ := exists_closed shorter
    have whole := List.takeWhile_append_dropWhile (p := isWord) (l := cs)
    rw [name_ends] at whole
    refine ⟨_, _, ⟨named, fun c => List.mem_takeWhile_imp, fun mem => ?_, behind, ?_⟩, rfl⟩
    · simpa using List.mem_takeWhile_imp mem
    · calc '#' :: (cs.takeWhile isWord ++ '(' :: (rest.takeWhile (· ≠ ')') ++ [')'])) ++ behind
          = '#' :: (cs.takeWhile isWord ++ '(' :: (rest.takeWhile (· ≠ ')') ++ ')' :: behind)) := by
            simp
        _ = '#' :: cs := by rw [← closed, whole]
  · cases read

theorem front?_eq_some_iff : front? cs = some m ↔
    ∃ name raw, Opens name raw cs ∧ m = ⟨String.ofList name, arguments raw⟩ := by
  constructor
  · intro found
    cases cs with
    | nil => cases found
    | cons c rest =>
        rw [front?] at found
        split at found
        · next is_mark =>
          subst is_mark
          exact exists_of_readBody? found
        · cases found
  · rintro ⟨name, raw, ⟨named, letters, unclosed, behind, rfl⟩, rfl⟩
    have read := readBody?_append named letters unclosed behind
    simpa [front?] using read

theorem marked_iff : Marked cs ↔ (front? cs).isSome := by
  simp only [Option.isSome_iff_exists, front?_eq_some_iff, Marked]
  constructor
  · rintro ⟨name, raw, opens⟩
    exact ⟨_, name, raw, opens, rfl⟩
  · rintro ⟨m, name, raw, opens, -⟩
    exact ⟨name, raw, opens⟩

/-! ## The scan -/

/-- `here` is a suffix, and every suffix that starts with a marker is a suffix of `here`. -/
def Leftmost (here cs : List Char) : Prop :=
  here <:+ cs ∧ ∀ other, other <:+ cs → Marked other → other <:+ here

theorem leftmost_cons {c : Char} {rest : List Char} :
    Leftmost here (c :: rest) ↔ here = c :: rest ∨ ¬Marked (c :: rest) ∧ Leftmost here rest := by
  constructor
  · rintro ⟨suffix, leftmost⟩
    rcases List.suffix_cons_iff.1 suffix with whole | suffix
    · exact .inl whole
    · refine .inr ⟨fun marked => ?_, suffix, fun other place =>
        leftmost other (place.trans (List.suffix_cons c rest))⟩
      have longer := ((leftmost _ List.suffix_rfl marked).trans suffix).length_le
      rw [List.length_cons] at longer
      omega
  · rintro (rfl | ⟨unmarked, suffix, leftmost⟩)
    · exact ⟨List.suffix_rfl, fun other suffix _ => suffix⟩
    · refine ⟨suffix.trans (List.suffix_cons c rest), fun other place marked => ?_⟩
      rcases List.suffix_cons_iff.1 place with rfl | place
      · exact (unmarked marked).elim
      · exact leftmost other place marked

theorem find?_eq_some_iff : find? cs = some m ↔
    ∃ here, Leftmost here cs ∧ front? here = some m := by
  induction cs with
  | nil => simp [find?, Leftmost, front?]
  | cons c rest ih =>
      rw [find?_cons, Option.or_eq_some_iff, ih]
      simp [leftmost_cons, marked_iff, or_and_right, exists_or, and_assoc]

theorem isSome_find? : (find? cs).isSome ↔ ∃ here, here <:+ cs ∧ Marked here := by
  induction cs with
  | nil => simp [find?, marked_iff, front?]
  | cons c rest ih =>
      rw [find?_cons, Option.isSome_or, Bool.or_eq_true, ih]
      simp [List.suffix_cons_iff, marked_iff, or_and_right, exists_or]

/-- Parsing finds the leftmost marker: `#`, word characters and a text in parentheses. The name is
all that precedes the `(`; the arguments are the pieces between commas up to the first `)`, trimmed,
and none for blank text. -/
theorem parse?_leftmost (text : String) :
    ((parse? text).isSome ↔ ∃ here, here <:+ text.toList ∧ Marked here) ∧
    ∀ m, parse? text = some m ↔ ∃ here name raw, Leftmost here text.toList ∧
      Opens name raw here ∧ m.name = String.ofList name ∧
      m.args = if Blank raw then []
        else (raw.splitOn ',').map fun piece => String.ofList (trim piece) := by
  refine ⟨isSome_find?, fun m => ?_⟩
  rw [parse?, find?_eq_some_iff]
  simp only [front?_eq_some_iff, ← arguments_eq]
  constructor
  · rintro ⟨here, leftmost, name, raw, opens, rfl⟩
    exact ⟨here, name, raw, leftmost, opens, rfl, rfl⟩
  · rintro ⟨here, name, raw, leftmost, opens, named, args⟩
    refine ⟨here, leftmost, name, raw, opens, ?_⟩
    rw [← named, ← args]

example : parse? "# #(a) #f( , x\n) #g()" = some ⟨"f", ["", "x"]⟩ := by decide +kernel

end Formwork.Marker
