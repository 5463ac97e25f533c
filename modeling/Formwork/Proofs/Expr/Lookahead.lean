import Formwork.Proofs.Expr.Lexeme

/-!
# Lookahead of the scanner

A token is determined by its lexeme and the character after it. White space or the end of the text
terminates every lexeme, and a punctuator is the longest at its offset.
-/

namespace Formwork.Scan

open Text

/-- `after'` may replace `after`: it is empty, starts with white space, or starts with the same
character. -/
def Replaces (after after' : List Char) : Prop :=
  ∀ c ∈ after'.head?, isBlank c = true ∨ after.head? = some c

theorem replaces_nil (after : List Char) : Replaces after [] := by simp [Replaces]

theorem replaces_blank {after gap : List Char} (rest : List Char) (blank : Blank gap)
    (nonempty : gap ≠ []) : Replaces after (gap ++ rest) := by
  intro c front
  rw [List.head?_append_of_ne_nil _ nonempty] at front
  exact .inl (blank c (List.mem_of_mem_head? front))

theorem replaces_beginning (before behind : List Char) : Replaces (before ++ behind) before := by
  intro c front
  obtain ⟨rest, rfl⟩ := List.head?_eq_some_iff.1 front
  exact .inr rfl

theorem replaces_append {lexeme : List Char} (nonempty : lexeme ≠ []) (rest rest' : List Char) :
    Replaces (lexeme ++ rest) (lexeme ++ rest') := by
  intro c front
  rw [List.head?_append_of_ne_nil _ nonempty] at front ⊢
  exact .inr front

/-! ## Punctuators -/

/-- `p` is the longest punctuator at the front of the text. -/
def LongestAt (p : Punct) (cs : List Char) : Prop :=
  p.symbol.toList <+: cs ∧ ∀ q : Punct, q.symbol.toList <+: cs → q.symbol.length ≤ p.symbol.length

theorem pairwise_all :
    Punct.all.Pairwise fun p q => p.symbol.toList <+: q.symbol.toList → p = q := by
  decide +kernel

theorem exists_longer {p q : Punct} (starts : p.symbol.toList <+: q.symbol.toList)
    (longer : p.symbol.length < q.symbol.length) :
    ∃ r : Punct, r.symbol.toList = q.symbol.toList.take (p.symbol.length + 1) := by
  have all : ∀ p ∈ Punct.all, ∀ q ∈ Punct.all, p.symbol.toList <+: q.symbol.toList →
      p.symbol.length < q.symbol.length →
      ∃ r ∈ Punct.all, r.symbol.toList = q.symbol.toList.take (p.symbol.length + 1) := by
    decide +kernel
  obtain ⟨r, -, same⟩ := all p (Punct.mem_all p) q (Punct.mem_all q) starts longer
  exact ⟨r, same⟩

theorem isBlank_of_mem_symbol {p : Punct} {c : Char} (mem : c ∈ p.symbol.toList) :
    isBlank c = false := by
  have visible : ∀ p ∈ Punct.all, p.symbol.toList.any isBlank = false := by decide
  simpa using List.any_eq_false.1 (visible p (Punct.mem_all p)) c mem

theorem LongestAt.unique {p q : Punct} {cs : List Char} (longest : LongestAt p cs)
    (longest' : LongestAt q cs) : p = q := by
  have same_length : p.symbol.toList.length = q.symbol.toList.length :=
    Nat.le_antisymm (longest'.2 p longest.1) (longest.2 q longest'.1)
  have starts := List.prefix_of_prefix_length_le longest.1 longest'.1 (Nat.le_of_eq same_length)
  exact Expr.Grammar.symbol_injective (String.toList_inj.1 (starts.eq_of_length same_length))

theorem longestAt_of_punctAt? {cs : List Char} {p : Punct} (found : punctAt? cs = some p) :
    LongestAt p cs := by
  obtain ⟨here, before, behind, split, none_before⟩ := List.find?_eq_some_iff_append.1 found
  refine ⟨List.isPrefixOf_iff_prefix.1 here, fun q matched => ?_⟩
  by_cases shorter : q.symbol.length ≤ p.symbol.length
  · exact shorter
  -- A longer one has this one as its beginning, so it stands before it in the list.
  have starts : p.symbol.toList <+: q.symbol.toList :=
    List.prefix_of_prefix_length_le (List.isPrefixOf_iff_prefix.1 here) matched
      (by simp only [String.length_toList]; omega)
  have place := Punct.mem_all q
  have ordered := pairwise_all
  rw [split] at place ordered
  rcases List.mem_append.1 place with earlier | same_or_later
  · have missed := none_before q earlier
    simp only [Bool.not_eq_true', ← Bool.not_eq_true] at missed
    exact (missed (List.isPrefixOf_iff_prefix.2 matched)).elim
  · rcases List.mem_cons.1 same_or_later with rfl | later
    · exact Nat.le_refl _
    · have first := (List.pairwise_append.1 ordered).2.1
      rw [(List.pairwise_cons.1 first).1 q later starts]

theorem punctAt?_eq_some_iff {cs : List Char} {p : Punct} :
    punctAt? cs = some p ↔ LongestAt p cs := by
  refine ⟨longestAt_of_punctAt?, fun longest => ?_⟩
  cases found : punctAt? cs with
  | none =>
      have missed := List.find?_eq_none.1 found p (Punct.mem_all p)
      exact (missed (List.isPrefixOf_iff_prefix.2 longest.1)).elim
  | some q => rw [(longestAt_of_punctAt? found).unique longest]

/-- Replacing what follows keeps the longest punctuator. -/
theorem LongestAt.replace {p : Punct} {after after' : List Char}
    (longest : LongestAt p (p.symbol.toList ++ after)) (replaces : Replaces after after') :
    LongestAt p (p.symbol.toList ++ after') := by
  refine ⟨List.prefix_append _ _, fun q matched => ?_⟩
  by_contra longer
  rw [Nat.not_le] at longer
  have starts : p.symbol.toList <+: q.symbol.toList :=
    List.prefix_of_prefix_length_le (List.prefix_append _ _) matched
      (by simp only [String.length_toList]; omega)
  -- One more character of it makes a punctuator too, and that character stood there before.
  obtain ⟨more, split⟩ := starts
  cases more with
  | nil =>
      have same := congrArg List.length split
      simp only [List.append_nil, String.length_toList] at same
      omega
  | cons c more =>
      obtain ⟨r, one_longer⟩ := exists_longer ⟨c :: more, split⟩ longer
      rw [← split] at matched one_longer
      have mem : c ∈ q.symbol.toList := by simp [← split]
      have visible := isBlank_of_mem_symbol mem
      have front' : after'.head? = some c := by
        obtain ⟨rest, same⟩ := (List.prefix_append_right_inj _).1 matched
        rw [← same]
        rfl
      have front : after.head? = some c := by
        refine (replaces c front').resolve_left ?_
        simp [visible]
      obtain ⟨rest, rfl⟩ := List.head?_eq_some_iff.1 front
      have taken : r.symbol.toList = p.symbol.toList ++ [c] := by
        rw [one_longer, ← String.length_toList, List.take_length_add_append]
        rfl
      have bound := longest.2 r ⟨rest, by simp [taken]⟩
      have length := congrArg List.length taken
      simp only [String.length_toList, List.length_append, List.length_singleton] at length
      omega

/-! ## Tokens -/

theorem numberSpan_of_blank {before c : Char} (rest : List Char) (blank : isBlank c = true) :
    numberSpan before (c :: rest) = ([], c :: rest) := by
  rw [numberSpan, if_neg]
  intro numeric
  have plain := plain_of_numeric (c := c) (by
    simp only [Bool.or_eq_true, Bool.and_eq_true, beq_iff_eq] at numeric ⊢
    tauto)
  rw [plain.1] at blank
  cases blank

theorem numberSpan_replaced (before : Char) (cs : List Char) {after' : List Char}
    (replaces : Replaces (numberSpan before cs).2 after') :
    numberSpan before ((numberSpan before cs).1 ++ after') =
      ((numberSpan before cs).1, after') := by
  induction cs generalizing before with
  | nil =>
      cases after' with
      | nil => rfl
      | cons c rest =>
          have blank : isBlank c = true := (replaces c rfl).resolve_right nofun
          exact numberSpan_of_blank rest blank
  | cons c rest ih =>
      rw [numberSpan] at replaces ⊢
      split at replaces
      · next numeric =>
        simp only [if_pos numeric, List.cons_append]
        rw [numberSpan, if_pos numeric, ih _ replaces]
      · next other =>
        simp only [if_neg other, List.nil_append]
        cases after' with
        | nil => rfl
        | cons d rest' =>
            rcases replaces d rfl with blank | same
            · exact numberSpan_of_blank rest' blank
            · obtain rfl : c = d := Option.some.inj same
              rw [numberSpan, if_neg other]

theorem stringSpan_replaced {quote : Char} {cs : List Char} {s : StringSpan}
    (h : stringSpan quote cs = some s) (after' : List Char) :
    stringSpan quote (s.raw ++ after') = some ⟨s.value, s.raw, after'⟩ := by
  fun_induction stringSpan quote cs generalizing s with
  | case1 => cases h
  | case2 rest =>
      cases h
      rw [List.singleton_append, stringSpan.eq_def]
      simp
  | case3 => cases h
  | case4 e rest ne ih =>
      obtain ⟨t, ht, rfl⟩ := Option.map_eq_some_iff.1 h
      simp [stringSpan, ne, ih ht]
  | case5 c rest ne ne' ih =>
      obtain ⟨t, ht, rfl⟩ := Option.map_eq_some_iff.1 h
      rw [List.cons_append, stringSpan.eq_def]
      simp [ne, ne', ih ht]

theorem getLast?_of_stringSpan {quote : Char} {cs : List Char} {s : StringSpan}
    (h : stringSpan quote cs = some s) : s.raw.getLast? = some quote := by
  fun_induction stringSpan quote cs generalizing s with
  | case1 => cases h
  | case2 rest =>
      cases h
      rfl
  | case3 => cases h
  | case4 e rest ne ih =>
      obtain ⟨t, ht, rfl⟩ := Option.map_eq_some_iff.1 h
      simp [List.getLast?_cons, ih ht]
  | case5 c rest ne ne' ih =>
      obtain ⟨t, ht, rfl⟩ := Option.map_eq_some_iff.1 h
      simp [List.getLast?_cons, ih ht]

theorem LongestAt.lexeme {p : Punct} {c : Char} {rest : List Char}
    (longest : LongestAt p (c :: rest)) :
    c :: rest.take (p.symbol.length - 1) = p.symbol.toList := by
  obtain ⟨behind, split⟩ := longest.1
  have nonempty := (intact_symbol p).nonempty
  cases symbol : p.symbol.toList with
  | nil => exact (nonempty symbol).elim
  | cons d body =>
      rw [symbol, List.cons_append, List.cons.injEq] at split
      obtain ⟨rfl, rfl⟩ := split
      have length : p.symbol.length - 1 = body.length := by
        rw [← String.length_toList, symbol]
        rfl
      rw [length, List.take_left]

/-- What each class of tokens takes of a text that starts with `c`. -/
inductive Takes (c : Char) (rest : List Char) : Scanned → Prop where
  | number {n : Binary64} {body after : List Char} (digit : c.isDigit = true)
      (whole : numberSpan c rest = (body, after))
      (reads : Binary64.ofDecimalText? (c :: body) = some n) :
      Takes c rest ⟨.number n, c :: body, after⟩
  | string {value body after : List Char} (quote : c = '\'' ∨ c = '"')
      (whole : stringSpan c rest = some ⟨value, body, after⟩) :
      Takes c rest ⟨.string (String.ofList value), c :: body, after⟩
  | ident {body after : List Char} (start : isIdentStart c = true)
      (all : ∀ d ∈ body, isIdentContinue d = true)
      (ends : ∀ d ∈ after.head?, isIdentContinue d = false) (whole : body ++ after = rest) :
      Takes c rest ⟨.ident (String.ofList (c :: body)), c :: body, after⟩
  | punct {p : Punct} {body after : List Char} (no_digit : c.isDigit = false)
      (no_quote : ¬(c = '\'' ∨ c = '"')) (no_letter : isIdentStart c = false)
      (longest : LongestAt p (c :: rest)) (symbol : c :: body = p.symbol.toList)
      (whole : body ++ after = rest) : Takes c rest ⟨.punct p, c :: body, after⟩

theorem takes_of_scanToken {c : Char} {rest : List Char} {offset : Nat} {s : Scanned}
    (scanned : scanToken c rest offset = .ok s) : Takes c rest s := by
  unfold scanToken at scanned
  split at scanned
  · next digit =>
    unfold scanNumber at scanned
    split at scanned
    · next n reads =>
      cases scanned
      exact .number digit rfl reads
    · cases scanned
  split at scanned
  · next quote =>
    unfold scanString at scanned
    split at scanned
    · next found =>
      cases scanned
      exact .string quote found
    · cases scanned
  split at scanned
  · next start =>
    cases scanned
    refine .ident start (fun d => List.mem_takeWhile_imp) (fun d front => ?_)
      List.takeWhile_append_dropWhile
    have stopped := List.head?_dropWhile_not isIdentContinue rest
    rw [front] at stopped
    exact stopped
  · next no_digit no_quote no_letter =>
    unfold scanPunct at scanned
    split at scanned
    · next p found =>
      cases scanned
      have longest := punctAt?_eq_some_iff.1 found
      exact .punct (Bool.not_eq_true _ ▸ no_digit) no_quote (Bool.not_eq_true _ ▸ no_letter)
        longest longest.lexeme (List.take_append_drop _ _)
    · cases scanned

theorem Takes.scanToken_eq {c : Char} {rest : List Char} {s : Scanned} (takes : Takes c rest s)
    (offset : Nat) : scanToken c rest offset = .ok s := by
  cases takes with
  | number digit whole reads => rw [scanToken, if_pos digit, whole, scanNumber, reads]
  | string quote whole =>
      have no_digit : ¬c.isDigit = true := by
        rcases quote with rfl | rfl <;> decide
      rw [scanToken, if_neg no_digit, if_pos quote, scanString, whole]
  | ident start all ends whole =>
      have no_quote : ¬(c = '\'' ∨ c = '"') := by
        rintro (rfl | rfl) <;> revert start <;> decide
      obtain ⟨taken, left⟩ := span_append all ends
      rw [scanToken, isDigit_of_isIdentStart start, if_neg Bool.false_ne_true, if_neg no_quote,
        if_pos start, scanIdent, ← whole, taken, left]
  | punct no_digit no_quote no_letter longest symbol whole =>
      have length := congrArg List.length symbol
      rw [List.length_cons, String.length_toList] at length
      rw [scanToken, no_digit, if_neg Bool.false_ne_true, if_neg no_quote, no_letter,
        if_neg Bool.false_ne_true, scanPunct, punctAt?_eq_some_iff.2 longest, ← whole]
      simp [← length]

/-- Before `after`, the lexeme is scanned as the token. -/
def Taken (lexeme : List Char) (t : Token) (after : List Char) : Prop :=
  ∃ c body, lexeme = c :: body ∧ isBlank c = false ∧ Takes c (body ++ after) ⟨t, lexeme, after⟩

theorem taken_of_scanToken {c : Char} {rest : List Char} {offset : Nat} {s : Scanned}
    (start : isBlank c = false) (scanned : scanToken c rest offset = .ok s) :
    Taken s.lexeme s.token s.after := by
  have takes := takes_of_scanToken scanned
  have split := lexeme_append_after scanned
  obtain ⟨body, lexeme⟩ : ∃ body, s.lexeme = c :: body := by
    cases takes <;> exact ⟨_, rfl⟩
  rw [lexeme, List.cons_append, List.cons.injEq] at split
  exact ⟨c, body, lexeme, start, by rw [split.2]; exact takes⟩

namespace Taken

variable {lexeme after after' : List Char} {t : Token}

theorem replace (taken : Taken lexeme t after) (replaces : Replaces after after') :
    Taken lexeme t after' := by
  obtain ⟨c, body, rfl, start, takes⟩ := taken
  refine ⟨c, body, rfl, start, ?_⟩
  cases takes with
  | number digit whole reads =>
      have again := @numberSpan_replaced c (body ++ after) after'
      rw [whole] at again
      exact .number digit (again replaces) reads
  | string quote whole => exact .string quote (stringSpan_replaced whole after')
  | ident letter all ends whole =>
      refine .ident letter all (fun d front => ?_) rfl
      rcases replaces d front with blank | same
      · rw [← Bool.not_eq_true]
        intro continues
        rw [isBlank_of_isIdentContinue continues] at blank
        cases blank
      · exact ends d same
  | punct no_digit no_quote no_letter longest symbol whole =>
      refine .punct no_digit no_quote no_letter ?_ symbol rfl
      rw [← List.cons_append, symbol] at longest ⊢
      exact longest.replace replaces

theorem ne_nil (taken : Taken lexeme t after) : lexeme ≠ [] := by
  obtain ⟨c, body, rfl, -, -⟩ := taken
  exact List.cons_ne_nil _ _

theorem ne_eof (taken : Taken lexeme t after) : t ≠ .eof := by
  obtain ⟨c, body, -, -, takes⟩ := taken
  rintro rfl
  cases takes

theorem last_visible (taken : Taken lexeme t after) :
    ∀ c ∈ lexeme.getLast?, isBlank c = false := by
  obtain ⟨c, body, rfl, -, takes⟩ := taken.replace (replaces_nil after)
  rw [List.append_nil] at takes
  intro d last
  have mem := List.mem_of_getLast? last
  cases takes with
  | number digit whole reads =>
      rcases List.mem_cons.1 mem with rfl | mem
      · exact (plain_of_numeric (by simp [digit])).1
      · exact (plain_of_numberSpan whole d mem).1
  | string quote whole =>
      have closing := getLast?_of_stringSpan whole
      rw [List.getLast?_cons, closing] at last
      obtain rfl : c = d := Option.some.inj last
      rcases quote with rfl | rfl <;> decide
  | ident letter all ends whole =>
      rcases List.mem_cons.1 mem with rfl | mem
      · exact isBlank_of_isIdentContinue (by simp [isIdentContinue, letter])
      · exact isBlank_of_isIdentContinue (all d mem)
  | punct no_digit no_quote no_letter longest symbol whole =>
      rw [symbol] at last
      exact (intact_symbol _).last d last

theorem longest {p : Punct} (taken : Taken lexeme (.punct p) after) :
    LongestAt p (lexeme ++ after) := by
  obtain ⟨c, body, rfl, -, takes⟩ := taken
  cases takes with
  | punct no_digit no_quote no_letter longest symbol whole => exact longest

theorem scan_append (taken : Taken lexeme t after) (offset : Nat) :
    scan (lexeme ++ after) offset =
      (scan after (offset + utf8Length lexeme)).map (⟨t, offset⟩ :: ·) := by
  obtain ⟨c, body, rfl, start, takes⟩ := taken
  rw [List.cons_append, scan.eq_def]
  simp only [start, Bool.false_eq_true, if_false]
  split
  · next e failed =>
    rw [takes.scanToken_eq] at failed
    cases failed
  · next s found =>
    rw [takes.scanToken_eq] at found
    cases found
    rfl

/-- A lexeme alone is scanned as its token. -/
theorem tokenize_eq (taken : Taken lexeme t after) :
    tokenize (String.ofList lexeme) = .ok [⟨t, 0⟩, ⟨.eof, utf8Length lexeme⟩] := by
  have alone := (taken.replace (replaces_nil after)).scan_append 0
  rw [List.append_nil, scan_nil, Nat.zero_add] at alone
  rw [tokenize, String.toList_ofList, alone]
  rfl

end Taken

end Formwork.Scan
