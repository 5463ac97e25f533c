import Formwork.Proofs.Expr.Delimiter

/-!
# Sources of expressions

A text and its delimited form compile to the same expression. The source of a compiled expression
compiles to the same expression unless stripping has joined braces in it.
-/

namespace Formwork

namespace Expression

open Delimiter

theorem compile_eq (text : String) :
    compile text = (Expr.parse (strip text)).map fun tree => ⟨strip text, tree⟩ :=
  bind_pure_comp (Expression.mk (strip text)) (Expr.parse (strip text))

theorem compile_eq_ok_iff {text : String} {e : Expression} :
    compile text = .ok e ↔ e.source = strip text ∧ Expr.parse e.source = .ok e.tree := by
  rcases e with ⟨source, tree⟩
  rw [compile_eq]
  constructor
  · intro compiled
    cases parsed : Expr.parse (strip text) with
    | error error =>
        rw [parsed] at compiled
        cases compiled
    | ok tree' =>
        rw [parsed] at compiled
        obtain ⟨rfl, rfl⟩ := Expression.mk.inj (Except.ok.inj compiled)
        exact ⟨rfl, parsed⟩
  · rintro ⟨rfl, parsed⟩
    exact congrArg (Except.map _) parsed

theorem exists_of_source {text source : String}
    (compiles : (compile text).toOption.map (·.source) = some source) :
    ∃ e, compile text = .ok e ∧ e.source = source := by
  cases compiled : compile text with
  | error error =>
      rw [compiled] at compiles
      cases compiles
  | ok e =>
      rw [compiled] at compiles
      exact ⟨e, rfl, Option.some.inj compiles⟩

/-- A compiled source compiles to the same expression if and only if stripping leaves it
unchanged. -/
theorem compile_source_iff {text : String} {e : Expression} (compiled : compile text = .ok e) :
    compile e.source = .ok e ↔ strip (strip text) = strip text := by
  obtain ⟨is_source, parsed⟩ := compile_eq_ok_iff.1 compiled
  rw [compile_eq_ok_iff, and_iff_left parsed, is_source, eq_comm]

end Expression

/-! ## Delimited texts -/

namespace Delimiter

open Text

variable {cs w₁ w₂ w₃ w₄ : List Char}

/-- Stripping removes added delimiters and the white space inside them. A brace at an end of the
text forms a run of three with the delimiter, of which two are removed. -/
theorem stripChars_delimited (bare : ¬Doubled '\x7b' cs) (bare' : ¬Doubled '\x7d' cs)
    (blank₁ : Blank w₁) (blank₂ : Blank w₂) (blank₃ : Blank w₃) (blank₄ : Blank w₄) :
    stripChars (w₁ ++ '\x7b' :: '\x7b' :: (w₂ ++ (cs ++ (w₃ ++ '\x7d' :: '\x7d' :: w₄)))) =
      trim cs := by
  have front : Blank (w₁ ++ w₂) := blank₁.append blank₂
  have back : Blank (w₃ ++ w₄) := blank₃.append blank₄
  have no_opening : '\x7b' ∉ w₃ ++ '\x7d' :: '\x7d' :: w₄ := by
    simp only [List.mem_append, List.mem_cons, not_or]
    exact ⟨blank₃.not_mem rfl, by decide, by decide, blank₄.not_mem rfl⟩
  have opening : removePairs '\x7b'
      (w₁ ++ '\x7b' :: '\x7b' :: (w₂ ++ (cs ++ (w₃ ++ '\x7d' :: '\x7d' :: w₄)))) =
      w₁ ++ (w₂ ++ (cs ++ (w₃ ++ '\x7d' :: '\x7d' :: w₄))) := by
    refine removePairs_insert ?_
    rw [← List.append_assoc, doubled_padded (front.not_mem rfl) no_opening]
    exact bare
  have closing : removePairs '\x7d'
      (w₁ ++ w₂ ++ (cs ++ w₃) ++ '\x7d' :: '\x7d' :: w₄) = w₁ ++ w₂ ++ (cs ++ w₃) ++ w₄ := by
    refine removePairs_insert ?_
    rw [List.append_assoc, List.append_assoc cs,
      doubled_padded (front.not_mem rfl) (back.not_mem rfl)]
    exact bare'
  rw [stripChars, opening]
  simp only [List.append_assoc] at closing ⊢
  rw [closing, ← List.append_assoc, trim_padded front back]

/-- A bare text and its delimited form, with any white space around, strip to the same source and
evaluate alike in every scope. -/
theorem strip_delimited {text w₁ w₂ w₃ w₄ : String}
    (bare : ¬Doubled '\x7b' text.toList ∧ ¬Doubled '\x7d' text.toList)
    (blank : ∀ w ∈ [w₁, w₂, w₃, w₄], Blank w.toList) :
    let delimited := w₁ ++ "\x7b\x7b" ++ w₂ ++ text ++ w₃ ++ "\x7d\x7d" ++ w₄
    strip delimited = strip text ∧ strip text = String.ofList (trim text.toList) ∧
      Expression.compile delimited = Expression.compile text ∧
        ∀ scope, Expression.evaluate delimited scope = Expression.evaluate text scope := by
  intro delimited
  have trimmed : stripChars text.toList = trim text.toList :=
    stripChars_of_not_doubled bare.1 bare.2
  have letters : delimited.toList = w₁.toList ++ '\x7b' :: '\x7b' :: (w₂.toList ++
      (text.toList ++ (w₃.toList ++ '\x7d' :: '\x7d' :: w₄.toList))) := by
    simp [delimited]
  have stripped : strip delimited = strip text := by
    rw [strip_eq_iff, trimmed, letters]
    exact stripChars_delimited bare.1 bare.2 (blank w₁ (by simp)) (blank w₂ (by simp))
      (blank w₃ (by simp)) (blank w₄ (by simp))
  have compiled : Expression.compile delimited = Expression.compile text := by
    rw [Expression.compile_eq, Expression.compile_eq, stripped]
  refine ⟨stripped, congrArg String.ofList trimmed, compiled, fun scope => ?_⟩
  rw [Expression.evaluate, Expression.evaluate, compiled]

end Delimiter

namespace Sample

open Delimiter

/-- A text with a single brace at either end keeps both, and is refused at the first one in both
forms. -/
theorem strip_delimited_braces :
    let delimited := " \n" ++ "\x7b\x7b" ++ "" ++ "\x7b a\x7d" ++ "" ++ "\x7d\x7d" ++ "\t"
    strip delimited = "\x7b a\x7d" ∧
      ∀ scope, Expression.evaluate delimited scope = Expression.evaluate "\x7b a\x7d" scope := by
  have bare : ¬Doubled '\x7b' "\x7b a\x7d".toList ∧ ¬Doubled '\x7d' "\x7b a\x7d".toList := by
    decide
  have blank : ∀ w ∈ [" \n", "", "", "\t"], Text.Blank w.toList := by decide
  obtain ⟨stripped, trimmed, -, evaluated⟩ := strip_delimited bare blank
  exact ⟨stripped.trans (trimmed.trans (by decide)), evaluated⟩

end Sample

/-! ## Complete stripping -/

namespace Delimiter

/-- The two removals bring opening braces together: an even number of closing braces stands between
two opening ones that the first removal leaves. -/
def Rejoins (text : String) : Prop :=
  Meets '\x7b' '\x7d' (removePairs '\x7b' text.toList)

/-- No closing delimiter remains after stripping. An opening one remains exactly when the removals
bring two opening braces together, and exactly then stripping again, or compiling the source of a
compiled expression, gives something else. -/
theorem strip_complete_iff (text : String) :
    ¬Doubled '\x7d' (strip text).toList ∧
    (¬Doubled '\x7b' (strip text).toList ↔ ¬Rejoins text) ∧
    (strip (strip text) = strip text ↔ ¬Rejoins text) ∧
    ∀ e, Expression.compile text = .ok e →
      ¬Doubled '\x7d' e.source.toList ∧ (¬Doubled '\x7b' e.source.toList ↔ ¬Rejoins text) ∧
        (Expression.compile e.source = .ok e ↔ ¬Rejoins text) := by
  have left : ¬Doubled '\x7d' (strip text).toList := by
    rw [toList_strip]
    exact not_doubled_stripChars _
  have opening : ¬Doubled '\x7b' (strip text).toList ↔ ¬Rejoins text := by
    rw [toList_strip, doubled_stripChars_iff, Rejoins]
  have again : strip (strip text) = strip text ↔ ¬Rejoins text := by
    rw [strip_eq_iff, toList_strip, stripChars_stripChars_iff, doubled_stripChars_iff, Rejoins]
  refine ⟨left, opening, again, fun e compiled => ?_⟩
  rw [Expression.compile_source_iff compiled, (Expression.compile_eq_ok_iff.1 compiled).1]
  exact ⟨left, opening, again⟩

end Delimiter

namespace Sample

open Delimiter

/-- A text literal of a closing delimiter between single braces. -/
def apartBraces : String := "'\x7b\x7d\x7d\x7b'"

theorem exists_source_apartBraces :
    ∃ e, Expression.compile apartBraces = .ok e ∧ e.source = "'\x7b\x7b'" :=
  Expression.exists_of_source (by decide +kernel)

/-- The source of the literal contains a delimiter and compiles to another literal; that of the
delimited text contains none. -/
theorem strip_complete_iff_apartBraces :
    (∃ e, Expression.compile apartBraces = .ok e ∧ e.source = "'\x7b\x7b'" ∧
      ¬Expression.compile e.source = .ok e) ∧
    ∃ e, Expression.compile "\x7b\x7b a \x7d\x7d" = .ok e ∧ e.source = "a" ∧
      Expression.compile e.source = .ok e := by
  obtain ⟨-, -, -, apart⟩ := strip_complete_iff apartBraces
  obtain ⟨-, opening, -, delimited⟩ := strip_complete_iff "\x7b\x7b a \x7d\x7d"
  have rejoins : Rejoins apartBraces := ⟨1, ['\''], ['\''], rfl⟩
  have whole : ¬Rejoins "\x7b\x7b a \x7d\x7d" := opening.1 (by decide)
  obtain ⟨e, compiled, source⟩ := exists_source_apartBraces
  obtain ⟨e', compiled', source'⟩ :
      ∃ e, Expression.compile "\x7b\x7b a \x7d\x7d" = .ok e ∧ e.source = "a" :=
    Expression.exists_of_source (by decide +kernel)
  refine ⟨⟨e, compiled, source, fun same => (apart e compiled).2.2.1 same rejoins⟩, ?_⟩
  exact ⟨e', compiled', source', (delimited e' compiled').2.2.2 whole⟩

/-- Stripping is not complete and not idempotent, and a compiled source need not compile to the same
expression. -/
theorem not_strip_complete :
    (¬∀ text, ¬Doubled '\x7b' (strip text).toList ∧ ¬Doubled '\x7d' (strip text).toList) ∧
    (¬∀ text, strip (strip text) = strip text) ∧
    ¬∀ text e, Expression.compile text = .ok e → Expression.compile e.source = .ok e := by
  have unstable : strip (strip apartBraces) ≠ strip apartBraces := by decide
  refine ⟨fun complete => absurd (complete apartBraces).1 (by decide),
    fun stable => unstable (stable apartBraces), fun stable => ?_⟩
  obtain ⟨e, compiled, -⟩ := exists_source_apartBraces
  exact unstable ((Expression.compile_source_iff compiled).1 (stable apartBraces e compiled))

end Sample

end Formwork
