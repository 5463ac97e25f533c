import Formwork.Proofs.Expr.Lookahead

/-!
# Tokens tile their text

A scanned text alternates between white space and lexemes, and tokens are at the offsets of their
lexemes. Before a scanning failure the text is scanned as well.
-/

namespace Formwork.Scan

open Text

section Bytes

theorem utf8Length_eq (cs : List Char) : utf8Length cs = (String.ofList cs).utf8ByteSize := by
  have summed (cs : List Char) (n : Nat) :
      cs.foldl (fun n c => n + c.utf8Size) n = n + (String.ofList cs).utf8ByteSize := by
    induction cs generalizing n with
    | nil => rfl
    | cons c rest ih =>
        have split : String.ofList (c :: rest) = String.singleton c ++ String.ofList rest := by
          rw [← List.singleton_append, String.ofList_append]
          rfl
        rw [List.foldl_cons, ih, split, String.utf8ByteSize_append, String.utf8ByteSize_singleton]
        omega
  rw [utf8Length, summed, Nat.zero_add]

theorem utf8Length_append (cs cs' : List Char) :
    utf8Length (cs ++ cs') = utf8Length cs + utf8Length cs' := by
  simp only [utf8Length_eq, String.ofList_append, String.utf8ByteSize_append]

theorem utf8Length_cons (c : Char) (cs : List Char) :
    utf8Length (c :: cs) = c.utf8Size + utf8Length cs := by
  rw [← List.singleton_append, utf8Length_append]
  simp [utf8Length]

theorem utf8Length_pos {cs : List Char} (nonempty : cs ≠ []) : 0 < utf8Length cs := by
  cases cs with
  | nil => exact (nonempty rfl).elim
  | cons c rest =>
      rw [utf8Length_cons]
      have := c.utf8Size_pos
      omega

theorem append_inj_of_utf8Length {cs cs' rest rest' : List Char}
    (same : cs ++ rest = cs' ++ rest') (bytes : utf8Length cs = utf8Length cs') :
    cs = cs' ∧ rest = rest' := by
  induction cs generalizing cs' with
  | nil =>
      cases cs' with
      | nil => exact ⟨rfl, same⟩
      | cons c more =>
          have := utf8Length_pos (List.cons_ne_nil c more)
          simp only [utf8Length, List.foldl_nil] at bytes this
          omega
  | cons c more ih =>
      cases cs' with
      | nil =>
          have := utf8Length_pos (List.cons_ne_nil c more)
          simp only [utf8Length, List.foldl_nil] at bytes this
          omega
      | cons d more' =>
          rw [List.cons_append, List.cons_append, List.cons.injEq] at same
          obtain ⟨rfl, same⟩ := same
          rw [utf8Length_cons, utf8Length_cons] at bytes
          obtain ⟨rfl, rfl⟩ := ih same (by omega)
          exact ⟨rfl, rfl⟩

theorem isValid_utf8Length {source : String} {before behind : List Char}
    (split : source.toList = before ++ behind) :
    (⟨utf8Length before⟩ : String.Pos.Raw).IsValid source := by
  refine String.Pos.Raw.isValid_iff_exists_append.2
    ⟨String.ofList before, String.ofList behind, ?_, ?_⟩
  · rw [← String.ofList_append, ← split, String.ofList_toList]
  · rw [utf8Length_eq]
    rfl

end Bytes

/-! ## Tiles -/

/-- A token, its characters, and the white space behind them. -/
structure Tile where
  token : Token
  lexeme : List Char
  gap : List Char

def covered (tiles : List Tile) : List Char := tiles.flatMap fun tile => tile.lexeme ++ tile.gap

def located : List Tile → Nat → List Located
  | [], offset => [⟨.eof, offset⟩]
  | tile :: tiles, offset =>
    ⟨tile.token, offset⟩ :: located tiles (offset + utf8Length (tile.lexeme ++ tile.gap))

/-- A text without surrounding white space that is scanned as this one token. -/
structure Lexeme (cs : List Char) (t : Token) : Prop where
  first : ∀ c ∈ cs.head?, isBlank c = false
  last : ∀ c ∈ cs.getLast?, isBlank c = false
  alone : tokenize (String.ofList cs) = .ok [⟨t, 0⟩, ⟨.eof, utf8Length cs⟩]

/-- Leading white space and tiles make up the text, and the offsets are those of the lexemes. -/
structure Tiling (source : String) (ts : List Located) (lead : List Char) (tiles : List Tile) :
    Prop where
  text : source.toList = lead ++ covered tiles
  tokens : ts = located tiles (utf8Length lead)
  lead : Blank lead
  gaps : ∀ tile ∈ tiles, Blank tile.gap
  lexemes : ∀ tile ∈ tiles, Lexeme tile.lexeme tile.token

/-- Every lexeme is scanned as its token where it stands. -/
def Settled : List Tile → Prop
  | [] => True
  | tile :: tiles =>
    Taken tile.lexeme tile.token (tile.gap ++ covered tiles) ∧ Blank tile.gap ∧ Settled tiles

section Tiles

variable {tile : Tile} {tiles : List Tile} {offset : Nat}

theorem covered_cons (tile : Tile) (tiles : List Tile) :
    covered (tile :: tiles) = tile.lexeme ++ (tile.gap ++ covered tiles) := by
  rw [covered, List.flatMap_cons, List.append_assoc]
  rfl

theorem covered_append (tiles tiles' : List Tile) :
    covered (tiles ++ tiles') = covered tiles ++ covered tiles' := List.flatMap_append

theorem Settled.mem (settled : Settled tiles) (mem : tile ∈ tiles) :
    Blank tile.gap ∧ ∃ after, Taken tile.lexeme tile.token after := by
  induction tiles with
  | nil => cases mem
  | cons first more ih =>
      obtain ⟨taken, blank, settled⟩ := settled
      rcases List.mem_cons.1 mem with rfl | mem
      · exact ⟨blank, _, taken⟩
      · exact ih settled mem

theorem lexeme_of_taken {lexeme after : List Char} {t : Token} (taken : Taken lexeme t after) :
    Lexeme lexeme t where
  first := by
    obtain ⟨c, body, rfl, start, -⟩ := taken
    rintro d ⟨⟩
    exact start
  last := taken.last_visible
  alone := taken.tokenize_eq

theorem scan_blank_append {lead : List Char} (blank : Blank lead) (rest : List Char)
    (offset : Nat) : scan (lead ++ rest) offset = scan rest (offset + utf8Length lead) := by
  induction lead generalizing offset with
  | nil => rfl
  | cons c lead ih =>
      rw [List.cons_append, scan_blank (blank c List.mem_cons_self),
        ih (fun d mem => blank d (List.mem_cons_of_mem c mem)), utf8Length_cons, Nat.add_assoc]

theorem Settled.scan_eq (settled : Settled tiles) (offset : Nat) :
    scan (covered tiles) offset = .ok (located tiles offset) := by
  induction tiles generalizing offset with
  | nil => exact scan_nil offset
  | cons tile tiles ih =>
      obtain ⟨taken, blank, settled⟩ := settled
      rw [covered_cons, taken.scan_append, scan_blank_append blank, ih settled, located,
        utf8Length_append, Nat.add_assoc]
      rfl

/-- Scanned tokens come from settled tiles. -/
theorem exists_settled {cs : List Char} {ts : List Located} (scanned : scan cs offset = .ok ts) :
    ∃ lead tiles, cs = lead ++ covered tiles ∧ Blank lead ∧ Settled tiles ∧
      ts = located tiles (offset + utf8Length lead) := by
  fun_induction scan cs offset generalizing ts with
  | case1 offset =>
      cases scanned
      exact ⟨[], [], rfl, blank_nil, trivial, rfl⟩
  | case2 offset c rest blank ih =>
      obtain ⟨lead, tiles, rfl, lead_blank, settled, rfl⟩ := ih scanned
      refine ⟨c :: lead, tiles, rfl, List.forall_mem_cons.2 ⟨blank, lead_blank⟩, settled, ?_⟩
      rw [utf8Length_cons, Nat.add_assoc]
  | case3 => cases scanned
  | case4 offset c rest no_blank s found ih =>
      cases behind : scan s.after (offset + utf8Length s.lexeme) with
      | error e =>
          rw [behind] at scanned
          cases scanned
      | ok more =>
          rw [behind] at scanned
          cases scanned
          obtain ⟨lead, tiles, after, lead_blank, settled, rfl⟩ := ih behind
          have taken := taken_of_scanToken (Bool.not_eq_true _ ▸ no_blank) found
          rw [after] at taken
          refine ⟨[], ⟨s.token, s.lexeme, lead⟩ :: tiles, ?_, blank_nil,
            ⟨taken, lead_blank, settled⟩, ?_⟩
          · rw [List.nil_append, covered_cons, ← after, lexeme_append_after found]
          · rw [located, utf8Length_append, Nat.add_assoc]
            rfl

theorem located_ne_nil (tiles : List Tile) (offset : Nat) : located tiles offset ≠ [] := by
  cases tiles <;> exact List.cons_ne_nil _ _

theorem exists_split_of_mem {t : Located} (mem : t ∈ located tiles offset) :
    ∃ done todo, tiles = done ++ todo ∧
      (located todo (offset + utf8Length (covered done))).head? = some t := by
  induction tiles generalizing offset with
  | nil =>
      rw [located, List.mem_singleton] at mem
      subst mem
      exact ⟨[], [], rfl, rfl⟩
  | cons tile tiles ih =>
      rw [located, List.mem_cons] at mem
      rcases mem with rfl | later
      · exact ⟨[], tile :: tiles, rfl, rfl⟩
      · obtain ⟨done, todo, rfl, front⟩ := ih later
        refine ⟨tile :: done, todo, rfl, ?_⟩
        rw [covered_cons, ← List.append_assoc, utf8Length_append, ← Nat.add_assoc]
        exact front

theorem offset_of_head? {t : Located} (front : (located tiles offset).head? = some t) :
    t.offset = offset := by
  cases tiles <;> cases front <;> rfl

theorem le_offset_of_mem {t : Located} (mem : t ∈ located tiles offset) : offset ≤ t.offset := by
  obtain ⟨done, todo, -, front⟩ := exists_split_of_mem mem
  rw [offset_of_head? front]
  exact Nat.le_add_right _ _

theorem pairwise_located (nonempty : ∀ tile ∈ tiles, tile.lexeme ≠ []) (offset : Nat) :
    ((located tiles offset).map (·.offset)).Pairwise (· < ·) := by
  induction tiles generalizing offset with
  | nil => exact List.pairwise_singleton _ _
  | cons tile tiles ih =>
      rw [List.forall_mem_cons] at nonempty
      rw [located, List.map_cons, List.pairwise_cons]
      refine ⟨?_, ih nonempty.2 _⟩
      rw [List.forall_mem_map]
      intro t mem
      have later := le_offset_of_mem mem
      have wide := utf8Length_pos nonempty.1
      rw [utf8Length_append] at later
      show offset < t.offset
      omega

theorem exists_located_concat (tiles : List Tile) (ne_eof : ∀ tile ∈ tiles, tile.token ≠ .eof)
    (offset : Nat) :
    ∃ front, located tiles offset = front ++ [⟨.eof, offset + utf8Length (covered tiles)⟩] ∧
      ∀ t ∈ front, t.token ≠ .eof := by
  induction tiles generalizing offset with
  | nil => exact ⟨[], rfl, List.forall_mem_nil _⟩
  | cons tile tiles ih =>
      rw [List.forall_mem_cons] at ne_eof
      obtain ⟨front, split, others⟩ := ih ne_eof.2 (offset + utf8Length (tile.lexeme ++ tile.gap))
      refine ⟨⟨tile.token, offset⟩ :: front, ?_, List.forall_mem_cons.2 ⟨ne_eof.1, others⟩⟩
      rw [located, split, covered_cons, ← List.append_assoc, utf8Length_append _ (covered tiles),
        ← Nat.add_assoc]
      rfl

theorem Settled.of_append {done todo : List Tile} (settled : Settled (done ++ todo)) :
    Settled todo := by
  induction done with
  | nil => exact settled
  | cons tile done ih => exact ih settled.2.2

end Tiles

/-! ## Scanning failures -/

/-- Scanning fails at the front of the text, with this error for this offset. -/
inductive Blocked (offset : Nat) : ExpressionError → List Char → Prop where
  | char {c : Char} {rest : List Char} (no_digit : c.isDigit = false)
      (no_quote : ¬(c = '\'' ∨ c = '"')) (no_letter : isIdentStart c = false)
      (no_punct : ∀ p : Punct, ¬p.symbol.toList <+: c :: rest) :
      Blocked offset (.unexpectedChar c offset) (c :: rest)
  | string {quote : Char} {rest : List Char} (is_quote : quote = '\'' ∨ quote = '"')
      (unclosed : stringSpan quote rest = none) :
      Blocked offset (.unterminatedString offset) (quote :: rest)
  | number {c : Char} {rest body after : List Char} (digit : c.isDigit = true)
      (whole : numberSpan c rest = (body, after))
      (unread : Binary64.ofDecimalText? (c :: body) = none) :
      Blocked offset (.invalidNumber (String.ofList (c :: body)) offset) (c :: rest)

theorem blocked_of_scanToken {c : Char} {rest : List Char} {offset : Nat} {e : ExpressionError}
    (failed : scanToken c rest offset = .error e) : Blocked offset e (c :: rest) := by
  unfold scanToken at failed
  split at failed
  · next digit =>
    unfold scanNumber at failed
    split at failed
    · cases failed
    · next unread =>
      cases failed
      exact .number digit rfl unread
  split at failed
  · next quote =>
    unfold scanString at failed
    split at failed
    · cases failed
    · next unclosed =>
      cases failed
      exact .string quote unclosed
  split at failed
  · cases failed
  · next no_digit no_quote no_letter =>
    unfold scanPunct at failed
    split at failed
    · cases failed
    · next missed =>
      cases failed
      refine .char (Bool.not_eq_true _ ▸ no_digit) no_quote (Bool.not_eq_true _ ▸ no_letter) ?_
      intro p here
      exact List.find?_eq_none.1 missed p (Punct.mem_all p) (List.isPrefixOf_iff_prefix.2 here)

theorem exists_settled_of_error {cs : List Char} {offset : Nat} {e : ExpressionError}
    (failed : scan cs offset = .error e) :
    ∃ lead tiles behind, cs = lead ++ covered tiles ++ behind ∧ Blank lead ∧ Settled tiles ∧
      Blocked (offset + utf8Length (lead ++ covered tiles)) e behind := by
  fun_induction scan cs offset generalizing e with
  | case1 offset => cases failed
  | case2 offset c rest blank ih =>
      obtain ⟨lead, tiles, behind, rfl, lead_blank, settled, blocked⟩ := ih failed
      refine ⟨c :: lead, tiles, behind, rfl, List.forall_mem_cons.2 ⟨blank, lead_blank⟩, settled,
        ?_⟩
      rw [List.cons_append, utf8Length_cons, ← Nat.add_assoc]
      exact blocked
  | case3 offset c rest no_blank e' fault =>
      cases failed
      exact ⟨[], [], c :: rest, rfl, blank_nil, trivial, blocked_of_scanToken fault⟩
  | case4 offset c rest no_blank s found ih =>
      cases behind : scan s.after (offset + utf8Length s.lexeme) with
      | ok more =>
          rw [behind] at failed
          cases failed
      | error e' =>
          rw [behind] at failed
          cases failed
          obtain ⟨lead, tiles, fault, after, lead_blank, settled, blocked⟩ := ih behind
          have taken := taken_of_scanToken (Bool.not_eq_true _ ▸ no_blank) found
          rw [after] at taken
          -- The fault is gone from behind the lexeme, and what is left there starts as before.
          have before := taken.replace (replaces_beginning _ _)
          have split := lexeme_append_after found
          refine ⟨[], ⟨s.token, s.lexeme, lead⟩ :: tiles, fault, ?_, blank_nil,
            ⟨before, lead_blank, settled⟩, ?_⟩
          · rw [List.nil_append, covered_cons, List.append_assoc, ← after, split]
          · rw [List.nil_append, covered_cons, utf8Length_append, ← Nat.add_assoc]
            exact blocked

/-! ## Tiling -/

theorem tiling_of_settled {source : String} {lead : List Char} {tiles : List Tile}
    (text : source.toList = lead ++ covered tiles) (blank : Blank lead) (settled : Settled tiles) :
    Tiling source (located tiles (utf8Length lead)) lead tiles where
  text := text
  tokens := rfl
  lead := blank
  gaps tile mem := (settled.mem mem).1
  lexemes tile mem := by
    obtain ⟨-, after, taken⟩ := settled.mem mem
    exact lexeme_of_taken taken

theorem exists_settled_of_tokenize {source : String} {ts : List Located}
    (scanned : tokenize source = .ok ts) :
    ∃ lead tiles, source.toList = lead ++ covered tiles ∧ Blank lead ∧ Settled tiles ∧
      ts = located tiles (utf8Length lead) := by
  obtain ⟨lead, tiles, text, blank, settled, tokens⟩ := exists_settled scanned
  rw [Nat.zero_add] at tokens
  exact ⟨lead, tiles, text, blank, settled, tokens⟩

section Places

variable {source : String} {lead : List Char} {tiles : List Tile} {t : Located}

theorem exists_place (text : source.toList = lead ++ covered tiles) (settled : Settled tiles)
    (mem : t ∈ located tiles (utf8Length lead)) :
    ∃ before todo, source.toList = before ++ covered todo ∧ t.offset = utf8Length before ∧
      Settled todo ∧ (located todo t.offset).head? = some t := by
  obtain ⟨done, todo, rfl, front⟩ := exists_split_of_mem mem
  have offset := offset_of_head? front
  rw [← offset] at front
  refine ⟨lead ++ covered done, todo, ?_, ?_, settled.of_append, front⟩
  · rw [text, covered_append, List.append_assoc]
  · rw [offset, utf8Length_append]

theorem isValid_offset (text : source.toList = lead ++ covered tiles) (settled : Settled tiles)
    (mem : t ∈ located tiles (utf8Length lead)) :
    (⟨t.offset⟩ : String.Pos.Raw).IsValid source := by
  obtain ⟨before, todo, split, offset, -, -⟩ := exists_place text settled mem
  rw [offset]
  exact isValid_utf8Length split

theorem exists_longest {p : Punct} {offset : Nat} (text : source.toList = lead ++ covered tiles)
    (settled : Settled tiles) (mem : ⟨.punct p, offset⟩ ∈ located tiles (utf8Length lead)) :
    ∃ before behind, source.toList = before ++ behind ∧ utf8Length before = offset ∧
      LongestAt p behind := by
  obtain ⟨before, todo, split, place, settled, front⟩ := exists_place text settled mem
  refine ⟨before, covered todo, split, place.symm, ?_⟩
  cases todo with
  | nil => cases front
  | cons tile more =>
      have token : tile.token = .punct p := congrArg Located.token (Option.some.inj front)
      have taken := settled.1
      rw [token] at taken
      rw [covered_cons]
      exact taken.longest

end Places

/-- Tokens tile their text. Offsets are character boundaries and strictly increase; the end token is
last and occurs once, at the byte length; the text consists of white space and the lexemes at the
offsets, each of which alone is scanned as its token; and every punctuator is the longest at its
offset. A scanning failure is at the offset of a character that starts no token, and the text before
it is scanned. -/
theorem tokens_tile_text (source : String) :
    (∀ ts, tokenize source = .ok ts →
      (∃ lead tiles, Tiling source ts lead tiles) ∧
      (ts.map (·.offset)).Pairwise (· < ·) ∧
      (∀ t ∈ ts, (⟨t.offset⟩ : String.Pos.Raw).IsValid source) ∧
      (∃ front, ts = front ++ [⟨.eof, source.utf8ByteSize⟩] ∧ ∀ t ∈ front, t.token ≠ .eof) ∧
      ∀ p offset, ⟨.punct p, offset⟩ ∈ ts → ∃ before behind, source.toList = before ++ behind ∧
        utf8Length before = offset ∧ LongestAt p behind) ∧
    ∀ e, tokenize source = .error e → ∃ before behind : String, source = before ++ behind ∧
      (⟨before.utf8ByteSize⟩ : String.Pos.Raw).IsValid source ∧
      Blocked before.utf8ByteSize e behind.toList ∧ ∃ ts, tokenize before = .ok ts := by
  constructor
  · intro ts scanned
    obtain ⟨lead, tiles, text, blank, settled, rfl⟩ := exists_settled_of_tokenize scanned
    have taken (tile : Tile) (mem : tile ∈ tiles) := (settled.mem mem).2
    refine ⟨⟨lead, tiles, tiling_of_settled text blank settled⟩, pairwise_located ?_ _,
      fun t => isValid_offset text settled, ?_, fun p offset => exists_longest text settled⟩
    · intro tile mem
      obtain ⟨after, here⟩ := taken tile mem
      exact here.ne_nil
    · obtain ⟨front, split, others⟩ := exists_located_concat tiles
        (fun tile mem => (taken tile mem).choose_spec.ne_eof) (utf8Length lead)
      refine ⟨front, ?_, others⟩
      rw [split, ← utf8Length_append, ← text, utf8Length_eq, String.ofList_toList]
  · intro e failed
    obtain ⟨lead, tiles, behind, split, blank, settled, blocked⟩ := exists_settled_of_error failed
    refine ⟨String.ofList (lead ++ covered tiles), String.ofList behind, ?_, ?_, ?_,
      located tiles (utf8Length lead), ?_⟩
    · rw [← String.ofList_append, ← split, String.ofList_toList]
    · rw [← utf8Length_eq]
      exact isValid_utf8Length split
    · rw [← utf8Length_eq, String.toList_ofList]
      rw [Nat.zero_add] at blocked
      exact blocked
    · rw [tokenize, String.toList_ofList, scan_blank_append blank, settled.scan_eq, Nat.zero_add]

end Formwork.Scan
