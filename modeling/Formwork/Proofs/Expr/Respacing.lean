import Formwork.Proofs.Expr.Tiling
import Formwork.Proofs.Expr.Unexpected

/-!
# White space between tokens

Inserting white space between tokens keeps the tokens and changes their offsets only, which the
parser merely reports.
-/

namespace Formwork

def ExpressionError.unplaced : ExpressionError → ExpressionError
  | .unexpectedChar c _ => .unexpectedChar c 0
  | .unterminatedString _ => .unterminatedString 0
  | .invalidNumber literal _ => .invalidNumber literal 0
  | .unexpectedToken expected found _ => .unexpectedToken expected found 0
  | e => e

namespace Expr.Parse

theorem token_peek_congr {ts ts' : List Located}
    (same : ts'.map (·.token) = ts.map (·.token)) : (peek ts').token = (peek ts).token := by
  cases ts with
  | nil => rw [List.map_eq_nil_iff.1 same]
  | cons t rest =>
      obtain ⟨t', rest', rfl, first, -⟩ := List.map_eq_cons_iff.1 same
      exact first

/-- Parsing is independent of the offsets. -/
theorem parseTokens_unplaced {ts ts' : List Located}
    (same : ts'.map (·.token) = ts.map (·.token)) :
    (parseTokens ts').mapError ExpressionError.unplaced =
      (parseTokens ts).mapError ExpressionError.unplaced := by
  have first := token_peek_congr same
  by_cases nothing : (peek ts).token = .eof
  · rw [parseTokens_of_eof nothing, parseTokens_of_eof (first.trans nothing)]
  · obtain ⟨front, rest, ending, rfl, settles, -⟩ := guided_whole ts
    rw [List.map_append] at same
    obtain ⟨front', rest', rfl, fronts, rests⟩ := List.map_eq_append_iff.1 same
    have ahead := token_peek_congr rests
    rw [parseTokens_eq nothing, parseTokens_eq (first ▸ nothing), settles front rest rfl rfl,
      settles front' rest' fronts ahead]
    cases ending with
    | read parsed => rfl
    | deep limit => rfl
    | stuck expected =>
        show Except.error (ExpressionError.unexpectedToken _ _ 0) = _
        rw [ahead]
        rfl

end Expr.Parse

namespace Scan

open Text

/-! ## Uniqueness of tilings -/

theorem append_inj_of_blank {cs cs' gap gap' : List Char}
    (visible : ∀ c ∈ cs.getLast?, isBlank c = false)
    (visible' : ∀ c ∈ cs'.getLast?, isBlank c = false) (blank : Blank gap) (blank' : Blank gap')
    (same : cs ++ gap = cs' ++ gap') : cs = cs' ∧ gap = gap' := by
  have cut {cs gap : List Char} (visible : ∀ c ∈ cs.getLast?, isBlank c = false)
      (blank : Blank gap) : trimEnd (cs ++ gap) = cs := by
    rw [trimEnd, List.reverse_append, List.dropWhile_append_of_pos blank.reverse,
      Intact.dropWhile_isBlank (by simpa using visible), List.reverse_reverse]
  have texts : cs = cs' := by
    rw [← cut visible blank, same, cut visible' blank']
  subst texts
  exact ⟨rfl, List.append_cancel_left same⟩

section Tiles

variable {tiles tiles' : List Tile} {offset : Nat}

theorem map_token_located (tiles : List Tile) (offset : Nat) :
    (located tiles offset).map (·.token) = tiles.map (·.token) ++ [.eof] := by
  induction tiles generalizing offset with
  | nil => rfl
  | cons tile tiles ih => simp [located, ih]

theorem offset_inj_of_located {offset' : Nat}
    (same : located tiles offset = located tiles' offset') : offset = offset' := by
  have heads := congrArg List.head? same
  cases tiles <;> cases tiles' <;> simp_all [located]

theorem tiles_inj
    (ends : ∀ tile ∈ tiles, Blank tile.gap ∧ ∀ c ∈ tile.lexeme.getLast?, isBlank c = false)
    (ends' : ∀ tile ∈ tiles', Blank tile.gap ∧ ∀ c ∈ tile.lexeme.getLast?, isBlank c = false)
    (text : covered tiles = covered tiles')
    (tokens : located tiles offset = located tiles' offset) : tiles = tiles' := by
  induction tiles generalizing tiles' offset with
  | nil =>
      cases tiles' with
      | nil => rfl
      | cons tile' tiles' =>
          exact (located_ne_nil _ _ (List.cons.inj tokens).2.symm).elim
  | cons tile tiles ih =>
      cases tiles' with
      | nil => exact (located_ne_nil _ _ (List.cons.inj tokens).2).elim
      | cons tile' tiles' =>
          rw [List.forall_mem_cons] at ends ends'
          obtain ⟨first, later⟩ := List.cons.inj tokens
          -- The next token starts at one offset, so the lexemes and gaps have as many bytes.
          have next := offset_inj_of_located later
          rw [covered_cons, covered_cons, ← List.append_assoc, ← List.append_assoc] at text
          obtain ⟨front, behind⟩ := append_inj_of_utf8Length text (by omega)
          obtain ⟨lexeme, gap⟩ :=
            append_inj_of_blank ends.1.2 ends'.1.2 ends.1.1 ends'.1.1 front
          rw [← next] at later
          obtain rfl := ih ends.2 ends'.2 behind later
          obtain ⟨t, cs, w⟩ := tile
          obtain ⟨t', cs', w'⟩ := tile'
          obtain rfl : t = t' := congrArg Located.token first
          obtain rfl : cs = cs' := lexeme
          obtain rfl : w = w' := gap
          rfl

/-- There is one way to tile a text with its tokens. -/
theorem Tiling.unique {source : String} {ts : List Located} {lead lead' : List Char}
    (tiling : Tiling source ts lead tiles) (tiling' : Tiling source ts lead' tiles') :
    lead = lead' ∧ tiles = tiles' := by
  have bytes := offset_inj_of_located (tiling.tokens.symm.trans tiling'.tokens)
  obtain ⟨rfl, text⟩ :=
    append_inj_of_utf8Length (tiling.text.symm.trans tiling'.text) bytes
  exact ⟨rfl, tiles_inj (fun tile mem => ⟨tiling.gaps tile mem, (tiling.lexemes tile mem).last⟩)
    (fun tile mem => ⟨tiling'.gaps tile mem, (tiling'.lexemes tile mem).last⟩) text
    (tiling.tokens.symm.trans tiling'.tokens)⟩

/-! ## Respacing -/

/-- The same lexeme followed by other white space, empty only if it was empty. -/
structure Respaced (tile tile' : Tile) : Prop where
  token : tile'.token = tile.token
  lexeme : tile'.lexeme = tile.lexeme
  blank : Blank tile'.gap
  apart : tile.gap ≠ [] → tile'.gap ≠ []

theorem respaced_of_sublist {t : Token} {cs gap gap' : List Char} (inserted : gap.Sublist gap')
    (blank : Blank gap') : Respaced ⟨t, cs, gap⟩ ⟨t, cs, gap'⟩ where
  token := rfl
  lexeme := rfl
  blank := blank
  apart some_gap none_left := some_gap (List.eq_nil_of_sublist_nil (none_left ▸ inserted))

theorem replaces_respaced {tile tile' : Tile} (settled : Settled tiles)
    (respaced : Respaced tile tile') (others : List.Forall₂ Respaced tiles tiles') :
    Replaces (tile.gap ++ covered tiles) (tile'.gap ++ covered tiles') := by
  by_cases touching : tile'.gap = []
  · have touched : tile.gap = [] := by
      by_contra some_gap
      exact respaced.apart some_gap touching
    rw [touching, touched]
    cases others with
    | nil => exact replaces_nil _
    | cons next others =>
        rw [List.nil_append, List.nil_append, covered_cons, covered_cons, next.lexeme]
        exact replaces_append settled.1.ne_nil _ _
  · exact replaces_blank _ respaced.blank touching

theorem Settled.respaced (settled : Settled tiles) (respaced : List.Forall₂ Respaced tiles tiles') :
    Settled tiles' := by
  induction respaced with
  | nil => trivial
  | cons here others ih =>
      obtain ⟨taken, -, settled⟩ := settled
      refine ⟨?_, here.blank, ih settled⟩
      rw [here.token, here.lexeme]
      exact taken.replace (replaces_respaced settled here others)

theorem map_token_respaced (respaced : List.Forall₂ Respaced tiles tiles') :
    tiles'.map (·.token) = tiles.map (·.token) := by
  induction respaced with
  | nil => rfl
  | cons here others ih => rw [List.map_cons, List.map_cons, here.token, ih]

end Tiles

/-- Tokens do not depend on the white space around them. The tiling of a text by its tokens is
unique, and with other white space in front and behind each lexeme, nonempty where it was nonempty,
the text has the same tokens and parses to the same tree or to the same error at its new offset. -/
theorem tokenize_respaced {source : String} {ts : List Located}
    (scanned : tokenize source = .ok ts) :
    (∃ lead tiles, Tiling source ts lead tiles) ∧
    ∀ lead tiles, Tiling source ts lead tiles → ∀ (lead' : List Char) (tiles' : List Tile)
      (source' : String), Blank lead' → List.Forall₂ Respaced tiles tiles' →
      source'.toList = lead' ++ covered tiles' →
      (∃ ts', tokenize source' = .ok ts' ∧ ts'.map (·.token) = ts.map (·.token)) ∧
      (Expr.parse source').mapError ExpressionError.unplaced =
        (Expr.parse source).mapError ExpressionError.unplaced := by
  obtain ⟨lead₀, tiles₀, text₀, blank₀, settled, rfl⟩ := exists_settled_of_tokenize scanned
  have tiling₀ := tiling_of_settled text₀ blank₀ settled
  refine ⟨⟨lead₀, tiles₀, tiling₀⟩, ?_⟩
  intro lead tiles tiling lead' tiles' source' blank respaced text
  obtain ⟨rfl, rfl⟩ := tiling₀.unique tiling
  have scanned' : tokenize source' = .ok (located tiles' (utf8Length lead')) := by
    rw [tokenize, text, scan_blank_append blank, (settled.respaced respaced).scan_eq, Nat.zero_add]
  have same : (located tiles' (utf8Length lead')).map (·.token) =
      (located tiles₀ (utf8Length lead₀)).map (·.token) := by
    rw [map_token_located, map_token_located, map_token_respaced respaced]
  refine ⟨⟨_, scanned', same⟩, ?_⟩
  rw [Expr.parse, Expr.parse, scanned, scanned']
  exact Expr.Parse.parseTokens_unplaced same

end Scan

namespace Sample

open Scan

/-- A comparison, and the same tokens apart. -/
theorem tokenize_respaced_comparison :
    ∃ ts, tokenize "a<=b" = .ok ts ∧
      (∃ ts', tokenize " a<= \tb\n" = .ok ts' ∧ ts'.map (·.token) = ts.map (·.token)) ∧
      (Expr.parse " a<= \tb\n").mapError ExpressionError.unplaced =
        (Expr.parse "a<=b").mapError ExpressionError.unplaced := by
  have scanned : tokenize "a<=b" =
      .ok [⟨.ident "a", 0⟩, ⟨.punct .lessEqual, 1⟩, ⟨.ident "b", 3⟩, ⟨.eof, 4⟩] := by
    decide +kernel
  have tiling : Tiling "a<=b"
      [⟨.ident "a", 0⟩, ⟨.punct .lessEqual, 1⟩, ⟨.ident "b", 3⟩, ⟨.eof, 4⟩] []
      [⟨.ident "a", ['a'], []⟩, ⟨.punct .lessEqual, ['<', '='], []⟩, ⟨.ident "b", ['b'], []⟩] := by
    have a : Lexeme ['a'] (.ident "a") := ⟨by simp; rfl, by simp; rfl, by decide +kernel⟩
    have b : Lexeme ['b'] (.ident "b") := ⟨by simp; rfl, by simp; rfl, by decide +kernel⟩
    have le : Lexeme ['<', '='] (.punct .lessEqual) :=
      ⟨by simp; rfl, by simp; rfl, by decide +kernel⟩
    exact ⟨by decide, by decide, Text.blank_nil, by simp [Text.blank_nil], by simp [a, b, le]⟩
  have apart (t : Token) (cs gap : List Char) (blank : Text.Blank gap) :
      Respaced ⟨t, cs, []⟩ ⟨t, cs, gap⟩ := respaced_of_sublist (List.nil_sublist gap) blank
  have respaced : List.Forall₂ Respaced _ _ :=
    .cons (apart (.ident "a") ['a'] [] (by decide))
      (.cons (apart (.punct .lessEqual) ['<', '='] [' ', '\t'] (by decide))
        (.cons (apart (.ident "b") ['b'] ['\n'] (by decide)) .nil))
  exact ⟨_, scanned, (tokenize_respaced scanned).2 _ _ tiling [' '] _ _ (by decide) respaced
    (by decide)⟩

end Sample

end Formwork
