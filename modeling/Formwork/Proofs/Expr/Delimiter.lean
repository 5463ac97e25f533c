import Mathlib.Data.List.Infix
import Mathlib.Data.List.TakeWhile
import Formwork.Expr.Eval

/-!
# Stripping

Removal of brace pairs in two steps, the opening ones first. A text without pairs is only trimmed.
The second removal can join two opening braces; `Meets` characterises when, and these are the only
texts whose stripping is incomplete.
-/

namespace Formwork

namespace Text

variable {cs w w' : List Char}

def Blank (w : List Char) : Prop := ∀ c ∈ w, isBlank c = true

instance : Decidable (Blank w) := decidable_of_iff (w.all isBlank = true) List.all_eq_true

theorem blank_nil : Blank [] := List.forall_mem_nil _

theorem Blank.append (blank : Blank w) (blank' : Blank w') : Blank (w ++ w') :=
  List.forall_mem_append.2 ⟨blank, blank'⟩

theorem Blank.reverse (blank : Blank w) : Blank w.reverse :=
  fun c mem => blank c (List.mem_reverse.1 mem)

theorem Blank.not_mem (blank : Blank w) {c : Char} (visible : isBlank c = false) : c ∉ w := by
  intro mem
  rw [blank c mem] at visible
  cases visible

theorem trim_append_blank (blank : Blank w) : trim (cs ++ w) = trim cs := by
  induction cs with
  | nil =>
      have start : trimStart w = [] := List.dropWhile_eq_nil_iff.2 blank
      rw [List.nil_append, trim, start]
      rfl
  | cons c rest ih =>
      by_cases c_blank : isBlank c = true
      · have skips (more : List Char) : trim (c :: more) = trim more := by
          rw [trim, trimStart, List.dropWhile_cons_of_pos c_blank]
          rfl
        rw [List.cons_append, skips, skips, ih]
      · have starts (more : List Char) : trimStart (c :: more) = c :: more :=
          List.dropWhile_cons_of_neg c_blank
        rw [List.cons_append, trim, trim, starts, starts, trimEnd, ← List.cons_append,
          List.reverse_append, List.dropWhile_append_of_pos blank.reverse, trimEnd]

theorem trim_padded (blank : Blank w) (blank' : Blank w') : trim (w ++ (cs ++ w')) = trim cs := by
  have start : trimStart (w ++ (cs ++ w')) = trimStart (cs ++ w') :=
    List.dropWhile_append_of_pos blank
  rw [trim, start]
  exact trim_append_blank blank'

theorem exists_padding (cs : List Char) :
    ∃ w w', Blank w ∧ Blank w' ∧ w ++ (trim cs ++ w') = cs := by
  have leading {cs : List Char} : Blank (cs.takeWhile isBlank) := fun c => List.mem_takeWhile_imp
  refine ⟨cs.takeWhile isBlank, ((trimStart cs).reverse.takeWhile isBlank).reverse, leading,
    leading.reverse, ?_⟩
  rw [trim, trimEnd, ← List.reverse_append, List.takeWhile_append_dropWhile, List.reverse_reverse,
    trimStart, List.takeWhile_append_dropWhile]

theorem trim_trim (cs : List Char) : trim (trim cs) = trim cs := by
  obtain ⟨w, w', blank, blank', padded⟩ := exists_padding cs
  conv_rhs => rw [← padded, trim_padded blank blank']

end Text

namespace Delimiter

variable {brace other : Char} {cs before after w w' : List Char}

def Doubled (brace : Char) (cs : List Char) : Prop := [brace, brace] <:+: cs

instance : Decidable (Doubled brace cs) := inferInstanceAs (Decidable ([brace, brace] <:+: cs))

theorem not_doubled_nil : ¬Doubled brace [] := by
  intro doubled
  cases List.infix_nil.1 doubled

theorem doubled_cons (c : Char) (rest : List Char) :
    Doubled brace (c :: rest) ↔ (c = brace ∧ rest.head? = some brace) ∨ Doubled brace rest := by
  rw [Doubled, List.infix_cons_iff, List.cons_prefix_cons]
  cases rest with
  | nil => simp [Doubled]
  | cons d rest => simp [Doubled, eq_comm]

theorem doubled_reverse : Doubled brace cs.reverse ↔ Doubled brace cs :=
  @List.reverse_infix _ [brace, brace] cs

theorem doubled_append_of_not_mem (apart : brace ∉ w) :
    Doubled brace (w ++ cs) ↔ Doubled brace cs := by
  induction w with
  | nil => rfl
  | cons c rest ih =>
      simp only [List.mem_cons, not_or] at apart
      rw [List.cons_append, doubled_cons, ih apart.2]
      exact or_iff_right fun here => apart.1 here.1.symm

theorem doubled_padded (apart : brace ∉ w) (apart' : brace ∉ w') :
    Doubled brace (w ++ (cs ++ w')) ↔ Doubled brace cs := by
  have reversed : brace ∉ w'.reverse := fun mem => apart' (List.mem_reverse.1 mem)
  rw [doubled_append_of_not_mem apart, ← doubled_reverse, List.reverse_append,
    doubled_append_of_not_mem reversed, doubled_reverse]

theorem doubled_trim (visible : Text.isBlank brace = false) :
    Doubled brace (Text.trim cs) ↔ Doubled brace cs := by
  obtain ⟨w, w', blank, blank', padded⟩ := Text.exists_padding cs
  conv_rhs => rw [← padded, doubled_padded (blank.not_mem visible) (blank'.not_mem visible)]

/-! ## Removing the pairs of one brace -/

theorem removePairs_cons_cons (brace c d : Char) (rest : List Char) :
    removePairs brace (c :: d :: rest) =
      if c = brace ∧ d = brace then removePairs brace rest
      else c :: removePairs brace (d :: rest) := rfl

theorem removePairs_cons_of_ne {c : Char} (ne : c ≠ brace) (rest : List Char) :
    removePairs brace (c :: rest) = c :: removePairs brace rest := by
  cases rest with
  | nil => rfl
  | cons d rest => rw [removePairs_cons_cons, if_neg fun both => ne both.1]

theorem removePairs_sublist (brace : Char) (cs : List Char) :
    List.Sublist (removePairs brace cs) cs := by
  fun_induction removePairs brace cs with
  | case1 c d rest both ih => exact (ih.cons d).cons c
  | case2 c d rest other ih => exact ih.cons_cons c
  | case3 cs short => exact .refl cs

theorem removePairs_of_not_doubled (undoubled : ¬Doubled brace cs) :
    removePairs brace cs = cs := by
  fun_induction removePairs brace cs with
  | case1 c d rest both ih =>
      obtain ⟨rfl, rfl⟩ := both
      exact (undoubled ((doubled_cons _ _).2 (.inl ⟨rfl, rfl⟩))).elim
  | case2 c d rest other ih =>
      rw [ih fun later => undoubled ((doubled_cons _ _).2 (.inr later))]
  | case3 cs short => rfl

theorem not_doubled_removePairs (brace : Char) (cs : List Char) :
    ¬Doubled brace (removePairs brace cs) := by
  fun_induction removePairs brace cs with
  | case1 c d rest both ih => exact ih
  | case2 c d rest other ih =>
      rw [doubled_cons]
      rintro (⟨rfl, next⟩ | later)
      · have ne : d ≠ c := fun same => other ⟨rfl, same⟩
        rw [removePairs_cons_of_ne ne] at next
        exact ne (Option.some.inj next)
      · exact ih later
  | case3 cs short =>
      match cs with
      | [] => exact not_doubled_nil
      | [c] => simp [doubled_cons, not_doubled_nil]
      | c :: d :: rest => exact (short c d rest rfl).elim

/-- Removal deletes an inserted pair, wherever it is inserted. -/
theorem removePairs_insert (undoubled : ¬Doubled brace (before ++ after)) :
    removePairs brace (before ++ brace :: brace :: after) = before ++ after := by
  induction before with
  | nil =>
      rw [List.nil_append, List.nil_append, removePairs_cons_cons, if_pos ⟨rfl, rfl⟩]
      exact removePairs_of_not_doubled undoubled
  | cons c rest ih =>
      have split := undoubled
      rw [List.cons_append, doubled_cons, not_or] at split
      have later := ih split.2
      by_cases is_brace : c = brace
      · subst is_brace
        cases rest with
        | nil =>
            -- The pair that goes starts one brace earlier, and leaves the same text.
            rw [List.cons_append, List.nil_append, removePairs_cons_cons, if_pos ⟨rfl, rfl⟩]
            exact removePairs_of_not_doubled undoubled
        | cons d rest =>
            have ne : d ≠ c := fun same => split.1 ⟨rfl, congrArg some same⟩
            rw [List.cons_append, List.cons_append, removePairs_cons_cons,
              if_neg fun both => ne both.2]
            exact congrArg (c :: ·) later
      · rw [List.cons_append, removePairs_cons_of_ne is_brace, later, List.cons_append]

theorem removePairs_append_cons {c : Char} (ne : c ≠ brace) :
    removePairs brace (before ++ c :: after) =
      removePairs brace before ++ c :: removePairs brace after := by
  fun_induction removePairs brace before with
  | case1 d d' rest both ih =>
      rw [List.cons_append, List.cons_append, removePairs_cons_cons, if_pos both, ih]
  | case2 d d' rest other ih =>
      rw [List.cons_append, List.cons_append, removePairs_cons_cons, if_neg other]
      exact congrArg (d :: ·) ih
  | case3 before short =>
      match before with
      | [] => exact removePairs_cons_of_ne ne after
      | [d] =>
          rw [List.cons_append, List.nil_append, removePairs_cons_cons,
            if_neg fun both => ne both.2, removePairs_cons_of_ne ne]
          rfl
      | d :: d' :: rest => exact (short d d' rest rfl).elim

theorem removePairs_replicate (n : Nat) :
    removePairs brace (List.replicate (2 * n) brace ++ cs) = removePairs brace cs := by
  induction n with
  | zero => rfl
  | succ n ih =>
      rw [Nat.mul_succ, List.replicate_succ, List.replicate_succ, List.cons_append,
        List.cons_append, removePairs_cons_cons, if_pos ⟨rfl, rfl⟩, ih]

/-! ## Pairs joined by removal -/

/-- Between two marks there is an even number of the braces. -/
def Meets (mark brace : Char) (cs : List Char) : Prop :=
  ∃ n, mark :: (List.replicate (2 * n) brace ++ [mark]) <:+: cs

variable {mark : Char}

theorem exists_prefix_of_head? (head : (removePairs brace cs).head? = some mark) :
    ∃ n, List.replicate (2 * n) brace ++ [mark] <+: cs := by
  fun_induction removePairs brace cs with
  | case1 c d rest both ih =>
      obtain ⟨rfl, rfl⟩ := both
      obtain ⟨n, found⟩ := ih head
      refine ⟨n + 1, ?_⟩
      rw [Nat.mul_succ, List.replicate_succ, List.replicate_succ, List.cons_append,
        List.cons_append, List.cons_prefix_cons, List.cons_prefix_cons]
      exact ⟨rfl, rfl, found⟩
  | case2 c d rest other ih =>
      obtain rfl : c = mark := Option.some.inj head
      exact ⟨0, d :: rest, rfl⟩
  | case3 cs short =>
      obtain ⟨rest, rfl⟩ := List.head?_eq_some_iff.1 head
      exact ⟨0, rest, rfl⟩

/-- Removing the pairs of one brace joins two marks exactly when an even number of the braces stood
between them. -/
theorem doubled_removePairs_iff (ne : mark ≠ brace) :
    Doubled mark (removePairs brace cs) ↔ Meets mark brace cs := by
  constructor
  · intro doubled
    fun_induction removePairs brace cs with
    | case1 c d rest both ih =>
        obtain ⟨n, found⟩ := ih doubled
        exact ⟨n, (List.infix_cons found).trans (List.suffix_cons _ _).isInfix⟩
    | case2 c d rest other ih =>
        rcases (doubled_cons _ _).1 doubled with ⟨rfl, next⟩ | later
        · obtain ⟨n, found⟩ := exists_prefix_of_head? next
          exact ⟨n, (List.cons_prefix_cons.2 ⟨rfl, found⟩).isInfix⟩
        · obtain ⟨n, found⟩ := ih later
          exact ⟨n, List.infix_cons found⟩
    | case3 cs short => exact ⟨0, doubled⟩
  · rintro ⟨n, before, after, rfl⟩
    have regrouped : before ++ mark :: (List.replicate (2 * n) brace ++ [mark]) ++ after =
        before ++ mark :: (List.replicate (2 * n) brace ++ mark :: after) := by simp
    rw [regrouped, removePairs_append_cons ne, removePairs_replicate, removePairs_cons_of_ne ne]
    exact ⟨removePairs brace before, removePairs brace after, by simp⟩

/-! ## Stripping -/

theorem toList_strip (text : String) : (strip text).toList = stripChars text.toList :=
  String.toList_ofList

theorem stripChars_of_not_doubled (bare : ¬Doubled '\x7b' cs) (bare' : ¬Doubled '\x7d' cs) :
    stripChars cs = Text.trim cs := by
  rw [stripChars, removePairs_of_not_doubled bare, removePairs_of_not_doubled bare']

theorem not_doubled_stripChars (cs : List Char) : ¬Doubled '\x7d' (stripChars cs) := by
  rw [stripChars, doubled_trim (by decide)]
  exact not_doubled_removePairs _ _

theorem doubled_stripChars_iff :
    Doubled '\x7b' (stripChars cs) ↔ Meets '\x7b' '\x7d' (removePairs '\x7b' cs) := by
  rw [stripChars, doubled_trim (by decide), doubled_removePairs_iff (by decide)]

theorem stripChars_sublist (cs : List Char) :
    List.Sublist (stripChars cs) (removePairs '\x7b' cs) := by
  have trimmed (cs : List Char) : List.Sublist (Text.trim cs) cs := by
    obtain ⟨w, w', -, -, padded⟩ := Text.exists_padding cs
    conv_rhs => rw [← padded]
    exact (List.sublist_append_left _ _).trans (List.sublist_append_right _ _)
  exact (trimmed _).trans (removePairs_sublist _ _)

theorem stripChars_stripChars_iff :
    stripChars (stripChars cs) = stripChars cs ↔ ¬Doubled '\x7b' (stripChars cs) := by
  constructor
  · intro stable
    have whole : List.Sublist (stripChars cs) (removePairs '\x7b' (stripChars cs)) := by
      conv_lhs => rw [← stable]
      exact stripChars_sublist _
    rw [whole.antisymm (removePairs_sublist _ _)]
    exact not_doubled_removePairs _ _
  · intro undoubled
    rw [stripChars_of_not_doubled undoubled (not_doubled_stripChars cs), stripChars,
      Text.trim_trim]

theorem strip_eq_iff {text text' : String} :
    strip text = strip text' ↔ stripChars text.toList = stripChars text'.toList :=
  String.ofList_inj

end Delimiter

end Formwork
