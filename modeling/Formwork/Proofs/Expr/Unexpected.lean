import Formwork.Proofs.Expr.Correct
import Formwork.Proofs.Expr.Guided

/-!
# The unexpected token

A parse that fails at an unexpected token fails at the first token that no sentence allows there.
-/

namespace Formwork.Expr.Parse

open Grammar

/-- The tokens are a sentence of the grammar, at any nesting and height. -/
def Sentence (s : List Token) : Prop := ∃ d e, Derives .conditional d s e

def closing (parsed : Parsed) : Parser := fun ts =>
  if (peek ts).token = .eof then finish parsed ts else .error (unexpected .endOfExpression ts)

def whole : Parser := andThen (conditional maxDepth maxDepth) closing

theorem parseTokens_of_eof {ts : List Located} (nothing : (peek ts).token = .eof) :
    parseTokens ts = .error .empty := if_pos nothing

theorem parseTokens_eq {ts : List Located} (something : (peek ts).token ≠ .eof) :
    parseTokens ts = (whole ts).map fun r => r.1.tree := by
  rw [parseTokens, if_neg something, whole, andThen]
  cases conditional maxDepth maxDepth ts with
  | error e => rfl
  | ok read =>
      obtain ⟨parsed, rest⟩ := read
      show (if (peek rest).token = .eof then _ else _) = Except.map _ (closing parsed rest)
      unfold closing
      split <;> rfl

theorem guided_whole : Guided (phrases .conditional) whole := by
  refine guided_andThen (guided_nested maxDepth maxDepth).1 (fun s parsed read => ?_)
    fun s e read => ⟨[], e, by simpa using read⟩
  refine guided_of_goes fun t => ?_
  by_cases is_end : t = .eof
  · refine .stays (finish parsed) (fun rest is_front => ?_) (guided_finish (by simpa using read))
    rw [closing, if_pos (is_front.trans is_end)]
  · refine .stays (Ending.stuck .endOfExpression).answer (fun rest is_front => ?_)
      (guided_ending _ ⟨[], parsed.tree, by simpa using read⟩)
    rw [closing, if_neg (is_front ▸ is_end)]
    rfl

theorem sentence_eq_of_map {ts : List Located} {s : List Token} (no_end : ∀ t ∈ s, t ≠ .eof)
    (tokens : ts.map (·.token) = s ++ [.eof]) : sentence ts = s := by
  obtain ⟨front, rest, rfl, rfl, last⟩ := List.map_eq_append_iff.1 tokens
  obtain ⟨t, behind, rfl, is_end, -⟩ := List.map_eq_cons_iff.1 last
  exact sentence_append (fun t mem => no_end _ (List.mem_map_of_mem mem)) is_end

theorem parseTokens_ne_unexpected {ts : List Located} {s : List Token} (is_sentence : Sentence s)
    (tokens : ts.map (·.token) = s ++ [.eof]) (expected : Expectation) (found : Token)
    (offset : Nat) : parseTokens ts ≠ .error (.unexpectedToken expected found offset) := by
  obtain ⟨d, e, derived⟩ := is_sentence
  rw [← sentence_eq_of_map derived.ne_eof tokens] at derived
  rw [parseTokens_of_derives derived]
  split <;> nofun

/-- The index of an unexpected token depends on neither offsets nor later tokens, and the tokens
before it begin a sentence. -/
theorem exists_front_of_unexpected {ts : List Located} {expected : Expectation} {found : Token}
    {offset : Nat} (failed : parseTokens ts = .error (.unexpectedToken expected found offset)) :
    ∃ front rest, ts = front ++ rest ∧ peek rest = ⟨found, offset⟩ ∧
      (∃ s, Sentence (front.map (·.token) ++ s)) ∧
      ∀ front' rest', front'.map (·.token) = front.map (·.token) → (peek rest').token = found →
        parseTokens (front' ++ rest') =
          .error (.unexpectedToken expected found (peek rest').offset) := by
  have something : (peek ts).token ≠ .eof := by
    intro nothing
    rw [parseTokens_of_eof nothing] at failed
    cases failed
  have failed' := failed
  rw [parseTokens_eq something] at failed'
  obtain ⟨front, rest, ending, rfl, settles, keeps⟩ := guided_whole ts
  rw [settles front rest rfl rfl] at failed'
  cases ending with
  | read parsed => cases failed'
  | deep limit => cases failed'
  | stuck unmet =>
      have here : unmet = expected ∧ (peek rest).token = found ∧ (peek rest).offset = offset := by
        simpa [Ending.answer, Except.map, unexpected] using failed'
      obtain ⟨rfl, rfl, rfl⟩ := here
      obtain ⟨s, e, d, derived⟩ := keeps
      refine ⟨front, rest, rfl, rfl, ⟨s, d, e, derived⟩, fun front' rest' tokens ahead => ?_⟩
      have something' : (peek (front' ++ rest')).token ≠ .eof := by
        rw [token_peek_append, tokens, ahead, ← token_peek_append]
        exact something
      rw [parseTokens_eq something', settles front' rest' tokens ahead, ← ahead]
      rfl

/-- The unexpected token of an error is the first that no sentence allows there: its index `k` is
the same for all offsets, the tokens before it begin a sentence, and together with it they begin
none, the end being allowed only after a sentence. -/
theorem unexpected_first_impossible {ts : List Located} {expected : Expectation} {found : Token}
    {offset : Nat} (ended : .eof ∈ ts.map (·.token))
    (failed : parseTokens ts = .error (.unexpectedToken expected found offset)) :
    ∃ k, ts[k]? = some ⟨found, offset⟩ ∧
      (∀ ts' : List Located, ts'.map (·.token) = ts.map (·.token) → ∃ offset',
        ts'[k]? = some ⟨found, offset'⟩ ∧
        parseTokens ts' = .error (.unexpectedToken expected found offset')) ∧
      (∃ s, Sentence s ∧ (ts.map (·.token)).take k <+: s) ∧
      ∀ s, Sentence s → ¬(ts.map (·.token)).take (k + 1) <+: s ++ [.eof] := by
  obtain ⟨front, rest, rfl, ahead, ⟨s, begun⟩, everywhere⟩ := exists_front_of_unexpected failed
  have no_end : .eof ∉ front.map (·.token) := by
    obtain ⟨d, e, derived⟩ := begun
    exact fun mem => derived.ne_eof _ (List.mem_append_left s mem) rfl
  cases rest with
  | nil => exact (no_end (by simpa using ended)).elim
  | cons t behind =>
  obtain rfl : t = ⟨found, offset⟩ := ahead
  refine ⟨front.length, by simp, fun ts' tokens => ?_, ⟨_, begun, by simp⟩, ?_⟩
  · rw [List.map_append, List.map_cons] at tokens
    obtain ⟨front', rest', rfl, fronts, rests⟩ := List.map_eq_append_iff.1 tokens
    obtain ⟨t', behind', rfl, is_found, -⟩ := List.map_eq_cons_iff.1 rests
    obtain ⟨token, offset'⟩ := t'
    obtain rfl : token = found := is_found
    have same_length : front.length = front'.length := by
      simpa using (congrArg List.length fronts).symm
    exact ⟨offset', by simp [same_length], everywhere front' _ fronts rfl⟩
  · intro s is_sentence begins
    have taken : ((front ++ ⟨found, offset⟩ :: behind).map (·.token)).take (front.length + 1) =
        front.map (·.token) ++ [found] := by
      simp [List.take_append, List.take_of_length_le]
    rw [taken] at begins
    obtain ⟨w, split⟩ := begins
    -- The sentence has the same tokens in front, and so it would be refused at the same place.
    have tokens : (front ++ ⟨found, 0⟩ :: w.map fun t => (⟨t, 0⟩ : Located)).map (·.token) =
        s ++ [.eof] := by
      simpa [Function.comp_def] using split
    exact parseTokens_ne_unexpected is_sentence tokens expected found 0
      (everywhere front _ rfl rfl)

end Formwork.Expr.Parse

namespace Formwork.Sample

open Expr.Parse

/-- `(a ? b)`, with the bracket where the other branch should begin. -/
def closedEarly : List Located :=
  [⟨.punct .openParen, 0⟩, ⟨.ident "a", 1⟩, ⟨.punct .question, 3⟩, ⟨.ident "b", 5⟩,
    ⟨.punct .closeParen, 6⟩, ⟨.eof, 7⟩]

/-- The tokens before the bracket begin a sentence, and with the bracket they begin none. -/
theorem unexpected_bracket :
    parseTokens closedEarly = .error (.unexpectedToken (.punct .colon) (.punct .closeParen) 6) ∧
    ∃ k, closedEarly[k]? = some ⟨.punct .closeParen, 6⟩ ∧
      (∃ s, Sentence s ∧ (closedEarly.map (·.token)).take k <+: s) ∧
      ∀ s, Sentence s → ¬(closedEarly.map (·.token)).take (k + 1) <+: s ++ [.eof] := by
  have failed :
      parseTokens closedEarly = .error (.unexpectedToken (.punct .colon) (.punct .closeParen) 6) :=
    rfl
  have ended : .eof ∈ closedEarly.map (·.token) := by decide
  obtain ⟨k, here, -, viable, impossible⟩ := unexpected_first_impossible ended failed
  exact ⟨failed, k, here, viable, impossible⟩

end Formwork.Sample
