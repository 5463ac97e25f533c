import Formwork.Proofs.Expr.Complete
import Formwork.Proofs.Expr.Sound

/-!
# Correctness of the parser

The parser accepts exactly the sentences of the grammar within its limits, with their trees. Since
this holds for every limit, the grammar is unambiguous.
-/

namespace Formwork.Expr.Parse

open Grammar

/-- The tokens before the end. -/
def sentence (ts : List Located) : List Token :=
  (ts.takeWhile fun t => t.token ≠ .eof).map (·.token)

theorem exists_split (ts : List Located) :
    ∃ front rest, ts = front ++ rest ∧ front.map (·.token) = sentence ts ∧
      (peek rest).token = .eof := by
  refine ⟨ts.takeWhile fun t => t.token ≠ .eof, ts.dropWhile fun t => t.token ≠ .eof,
    List.takeWhile_append_dropWhile.symm, rfl, ?_⟩
  induction ts with
  | nil => rfl
  | cons t rest ih =>
      by_cases is_end : t.token = .eof
      · rw [List.dropWhile_cons_of_neg (by simp [is_end]), peek_cons, is_end]
      · rw [List.dropWhile_cons_of_pos (by simp [is_end])]
        exact ih

theorem sentence_append {front rest : List Located} (before : ∀ t ∈ front, t.token ≠ .eof)
    (ends : (peek rest).token = .eof) : sentence (front ++ rest) = front.map (·.token) := by
  have nothing : rest.takeWhile (fun t => t.token ≠ .eof) = [] := by
    cases rest with
    | nil => rfl
    | cons t rest =>
        rw [peek_cons] at ends
        rw [List.takeWhile_cons_of_neg (by simp [ends])]
  rw [sentence, List.takeWhile_append_of_pos (by simpa using before), nothing, List.append_nil]

theorem stops_of_end {P : Phrase} {rest : List Located} (ends : (peek rest).token = .eof) :
    Stops P rest := by
  intro p front
  rw [ends] at front
  cases front

/-- The grammar is unambiguous, in the tree and in the nesting. -/
theorem derives_unique {P : Phrase} {d d' : Nat} {ts : List Token} {e e' : Expr}
    (h : Derives P d ts e) (h' : Derives P d' ts e') : e = e' ∧ d = d' := by
  -- One limit lets both trees through; the depth is set to one nesting or the other.
  let limit := e.height + e'.height
  have positive : 0 < limit := by
    have high := one_le_height e
    omega
  have tokens : (ts.map fun t => (⟨t, 0⟩ : Located)).map (·.token) = ts := by
    simp [Function.comp_def]
  have same (depth : Nat) : answer limit depth d e [] = answer limit depth d' e' [] := by
    rw [← (reads_of_derives positive h).reads depth _ [] tokens (stops_of_end rfl),
      ← (reads_of_derives positive h').reads depth _ [] tokens (stops_of_end rfl)]
  have low : e.height ≤ limit := by omega
  have low' : e'.height ≤ limit := by omega
  have not_deeper : d' ≤ d := by
    by_cases fits' : Fits limit d d' e'
    · exact fits'.1
    · have both := same d
      rw [answer_of_fits ⟨Nat.le_refl d, low⟩, answer_of_not_fits fits'] at both
      cases both
  have both := same d
  rw [answer_of_fits ⟨Nat.le_refl d, low⟩, answer_of_fits ⟨not_deeper, low'⟩] at both
  cases both
  refine ⟨rfl, ?_⟩
  have not_deeper' : d ≤ d' := by
    by_cases fits : Fits limit d' d e
    · exact fits.1
    · have both := same d'
      rw [answer_of_not_fits fits, answer_of_fits ⟨Nat.le_refl d', low'⟩] at both
      cases both
  omega

variable {ts : List Located} {d : Nat} {e : Expr}

theorem parseTokens_of_derives (h : Derives .conditional d (sentence ts) e) :
    parseTokens ts =
      if Fits maxDepth maxDepth d e then .ok e else .error (.tooDeep maxDepth) := by
  obtain ⟨front, rest, split, tokens, ends⟩ := exists_split ts
  rw [← tokens] at h
  have read : conditional maxDepth maxDepth ts = answer maxDepth maxDepth d e rest := by
    rw [split]
    exact reads_of_derives (by decide) h maxDepth front rest rfl (stops_of_end ends)
  have begins : (peek ts).token ≠ .eof := by
    cases front with
    | nil => exact (h.ne_nil rfl).elim
    | cons t front =>
        rw [split, List.cons_append, peek_cons]
        exact h.ne_eof _ (by simp)
  rw [parseTokens, if_neg begins, read]
  by_cases fits : Fits maxDepth maxDepth d e
  · rw [answer_of_fits fits, if_pos fits]
    exact if_pos ends
  · rw [answer_of_not_fits fits, if_neg fits]
    rfl

theorem derives_of_parseTokens (h : parseTokens ts = .ok e) :
    ∃ d, Derives .conditional d (sentence ts) e := by
  unfold parseTokens at h
  split at h
  · cases h
  · obtain ⟨⟨parsed, rest⟩, read, ended⟩ := ok_of_bind h
    obtain ⟨front, d, split, derived⟩ := (sound_nested maxDepth maxDepth).1 _ _ _ read
    dsimp only at ended
    split at ended
    · next ends =>
      cases ended
      refine ⟨d, ?_⟩
      have before : ∀ t ∈ front, t.token ≠ .eof :=
        fun t mem => derived.ne_eof _ (List.mem_map_of_mem mem)
      rw [split, sentence_append before ends]
      exact derived
    · cases ended

/-- The parser accepts exactly the sentences of the grammar that are nested at most 64 deep and
have a tree at most 64 high, and with that tree. A sentence that breaks either bound is too deep,
and no other sequence of tokens is accepted. No sequence is a sentence in two ways. -/
theorem parseTokens_eq_ok_iff (ts : List Located) :
    (∀ e, parseTokens ts = .ok e ↔
      ∃ d, Derives .conditional d (sentence ts) e ∧ d ≤ 64 ∧ e.height ≤ 64) ∧
    (∀ d e, Derives .conditional d (sentence ts) e → 64 < d ∨ 64 < e.height →
      parseTokens ts = .error (.tooDeep 64)) ∧
    ((∀ d e, ¬Derives .conditional d (sentence ts) e) → ∀ e, parseTokens ts ≠ .ok e) ∧
    (∀ (tokens : List Token) d d' e e', Derives .conditional d tokens e →
      Derives .conditional d' tokens e' → e = e' ∧ d = d') := by
  refine ⟨fun e => ⟨fun accepted => ?_, ?_⟩, ?_, ?_, ?_⟩
  · obtain ⟨d, derived⟩ := derives_of_parseTokens accepted
    have answered := parseTokens_of_derives derived
    rw [accepted] at answered
    split at answered
    · next fits => exact ⟨d, derived, fits⟩
    · cases answered
  · rintro ⟨d, derived, fits⟩
    rw [parseTokens_of_derives derived]
    exact if_pos fits
  · intro d e derived deep
    rw [parseTokens_of_derives derived]
    refine if_neg fun fits => ?_
    have nested : d ≤ 64 := fits.1
    have low : e.height ≤ 64 := fits.2
    omega
  · intro none_derives e accepted
    obtain ⟨d, derived⟩ := derives_of_parseTokens accepted
    exact none_derives d e derived
  · intro tokens d d' e e' h h'
    exact derives_unique h h'

end Formwork.Expr.Parse
