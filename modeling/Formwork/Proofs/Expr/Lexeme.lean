import Mathlib.Data.List.Chain
import Mathlib.Data.List.Forall2
import Formwork.Proofs.Expr.Delimiter
import Formwork.Proofs.Expr.Print
import Formwork.Proofs.Number.Text

/-!
# Scanning printed lexemes

Lexemes joined by spaces are scanned as the tokens they are written for. They neither start nor end
with white space and contain no doubled brace, so that stripping leaves the joined text unchanged.
-/

namespace Formwork

namespace Text

theorem inRanges_eq_false {table : Array (Nat × Nat)} {c : Char} {low high : Nat}
    (apart : ∀ range ∈ table.toList, range.2 < low ∨ high < range.1) (above : low ≤ c.toNat)
    (below : c.toNat ≤ high) : inRanges table c = false := by
  rw [inRanges, ← Array.any_toList, List.any_eq_false]
  intro range mem
  have outside := apart range mem
  simp only [Bool.and_eq_true, decide_eq_true_eq, not_and]
  omega

def blankRanges : List (Nat × Nat) :=
  [(0x85, 0x85), (0xA0, 0xA0), (0x1680, 0x1680), (0x2000, 0x200A), (0x2028, 0x2029),
    (0x202F, 0x202F), (0x205F, 0x205F), (0x3000, 0x3000)]

theorem alphabeticRanges_apart : ∀ blank ∈ blankRanges, ∀ range ∈ alphabeticRanges.toList,
    range.2 < blank.1 ∨ blank.2 < range.1 := by
  decide +kernel

theorem numericRanges_apart : ∀ blank ∈ blankRanges, ∀ range ∈ numericRanges.toList,
    range.2 < blank.1 ∨ blank.2 < range.1 := by
  decide +kernel

theorem isBlank_iff (c : Char) : isBlank c = true ↔
    (c.toNat ∈ [0x9, 0xA, 0xB, 0xC, 0xD, 0x20]) ∨
      ∃ blank ∈ blankRanges, blank.1 ≤ c.toNat ∧ c.toNat ≤ blank.2 := by
  simp only [isBlank, blankRanges, List.mem_cons, List.not_mem_nil, or_false, Bool.or_eq_true,
    Bool.and_eq_true, decide_eq_true_eq, beq_iff_eq, exists_eq_or_imp, exists_eq_left]
  omega

end Text

namespace Scan

open Text

theorem isIdentContinue_ascii : ∀ n < 0x80,
    (isBlank (Char.ofNat n) = true → isIdentContinue (Char.ofNat n) = false) ∧
      ((Char.ofNat n).isDigit = true → isIdentStart (Char.ofNat n) = false) := by
  decide +kernel

theorem isBlank_of_isIdentContinue {c : Char} (h : isIdentContinue c = true) :
    isBlank c = false := by
  rw [← Bool.not_eq_true]
  intro blank
  rcases (isBlank_iff c).1 blank with ascii | ⟨range, mem, above, below⟩
  · have small : c.toNat < 0x80 := by
      simp only [List.mem_cons, List.not_mem_nil, or_false] at ascii
      omega
    have no_ident := (isIdentContinue_ascii c.toNat small).1
    rw [Char.ofNat_toNat] at no_ident
    rw [no_ident blank] at h
    cases h
  · have bound : ∀ range ∈ blankRanges, 0x80 ≤ range.1 := by decide
    have large : ¬c.toNat < 0x80 := by
      have := bound range mem
      omega
    have no_letter : isAlphabetic c = false := by
      rw [isAlphabetic, if_neg large]
      exact inRanges_eq_false (alphabeticRanges_apart range mem) above below
    have no_number : isNumeric c = false := by
      rw [isNumeric, if_neg large]
      exact inRanges_eq_false (numericRanges_apart range mem) above below
    simp only [isIdentContinue, isIdentStart, no_letter, no_number, Bool.or_false,
      Bool.or_eq_true, beq_iff_eq] at h
    rcases h with rfl | rfl <;> exact large (by decide)

theorem toNat_of_isDigit {c : Char} (digit : c.isDigit = true) : c.toNat ≤ 57 := by
  simp only [Char.isDigit, Bool.and_eq_true, decide_eq_true_eq] at digit
  exact digit.2

theorem isDigit_of_isIdentStart {c : Char} (h : isIdentStart c = true) : c.isDigit = false := by
  rw [← Bool.not_eq_true]
  intro digit
  have small : c.toNat < 0x80 := by
    have := toNat_of_isDigit digit
    omega
  have no_ident := (isIdentContinue_ascii c.toNat small).2
  rw [Char.ofNat_toNat] at no_ident
  rw [no_ident digit] at h
  cases h

def Undoubled (a b : Char) : Prop := a = b → a ≠ '\x7b' ∧ a ≠ '\x7d'

/-- Stripping leaves the text unchanged. -/
structure Intact (cs : List Char) : Prop where
  nonempty : cs ≠ []
  first : ∀ c ∈ cs.head?, isBlank c = false
  last : ∀ c ∈ cs.getLast?, isBlank c = false
  braces : cs.IsChain Undoubled

/-- The lexeme is followed by a space or by nothing. -/
def Apart (after : List Char) : Prop := ∀ c ∈ after.head?, c = ' '

/-- The lexeme is scanned as `t` whenever it is set apart. -/
structure Writes (lexeme : String) (t : Token) : Prop extends Intact lexeme.toList where
  taken : ∀ (c : Char) (rest after : List Char) (offset : Nat), lexeme.toList = c :: rest →
    Apart after → scanToken c (rest ++ after) offset = .ok ⟨t, c :: rest, after⟩

namespace Intact

def Plain (c : Char) : Prop := isBlank c = false ∧ c ≠ '\x7b' ∧ c ≠ '\x7d'

theorem of_plain {cs : List Char} (nonempty : cs ≠ []) (plain : ∀ c ∈ cs, Plain c) :
    Intact cs where
  nonempty := nonempty
  first c mem := (plain c (List.mem_of_mem_head? mem)).1
  last c mem := (plain c (List.mem_of_getLast? mem)).1
  braces := by
    clear nonempty
    induction cs with
    | nil => exact .nil
    | cons c rest ih =>
        simp only [List.forall_mem_cons] at plain
        exact (ih plain.2).cons fun _ _ _ => plain.1.2

theorem append_space {cs cs' : List Char} (h : Intact cs) (h' : Intact cs') :
    Intact (cs ++ ' ' :: cs') where
  nonempty := by simp
  first c mem := by
    rw [List.head?_append_of_ne_nil _ h.nonempty] at mem
    exact h.first c mem
  last c mem := by
    rw [List.getLast?_append_of_ne_nil _ (List.cons_ne_nil _ _),
      List.getLast?_cons_of_ne_nil h'.nonempty] at mem
    exact h'.last c mem
  braces := by
    refine List.isChain_append.2 ⟨h.braces, h'.braces.cons ?_, ?_⟩
    · rintro c - rfl
      decide
    · rintro c - d ⟨⟩ rfl
      decide

theorem removePairs {brace : Char} (either : brace = '\x7b' ∨ brace = '\x7d') {cs : List Char}
    (braces : cs.IsChain Undoubled) : Delimiter.removePairs brace cs = cs := by
  refine Delimiter.removePairs_of_not_doubled fun doubled => ?_
  have pair := List.IsChain.infix braces doubled
  have undoubled := List.isChain_pair.1 pair rfl
  rcases either with rfl | rfl
  · exact undoubled.1 rfl
  · exact undoubled.2 rfl

theorem dropWhile_isBlank {cs : List Char} (first : ∀ c ∈ cs.head?, isBlank c = false) :
    cs.dropWhile isBlank = cs := by
  cases cs with
  | nil => rfl
  | cons c rest => rw [List.dropWhile_cons_of_neg (by simp [first c rfl])]

theorem stripChars {cs : List Char} (h : Intact cs) : Delimiter.stripChars cs = cs := by
  rw [Delimiter.stripChars, removePairs (.inl rfl) h.braces, removePairs (.inr rfl) h.braces,
    trim, trimStart, dropWhile_isBlank h.first, trimEnd, dropWhile_isBlank ?_, List.reverse_reverse]
  rw [List.head?_reverse]
  exact h.last

end Intact

theorem apart_nil : Apart [] := nofun

theorem apart_space (rest : List Char) : Apart (' ' :: rest) := by
  rintro c ⟨⟩
  rfl

theorem intact_symbol (p : Punct) : Intact p.symbol.toList := by
  have symbols : (Punct.all.all fun p => !p.symbol.toList.isEmpty &&
      p.symbol.toList.all fun c => !isBlank c && c != '\x7b' && c != '\x7d') = true := by
    decide +kernel
  have plain := List.all_eq_true.1 symbols p (Punct.mem_all p)
  simp only [Bool.and_eq_true, Bool.not_eq_true', List.isEmpty_eq_false_iff, List.all_eq_true,
    bne_iff_ne, and_assoc] at plain
  exact .of_plain plain.1 plain.2

theorem writes_punct (p : Punct) : Writes p.symbol (.punct p) := by
  refine ⟨intact_symbol p, fun c rest after offset split apart => ?_⟩
  cases after with
  | nil => cases p <;> cases split <;> rfl
  | cons space after =>
      obtain rfl := apart space rfl
      cases p <;> cases split <;> rfl

theorem plain_of_isIdentContinue {c : Char} (h : isIdentContinue c = true) : Intact.Plain c := by
  refine ⟨isBlank_of_isIdentContinue h, ?_, ?_⟩ <;> rintro rfl <;> revert h <;> decide

theorem exists_of_isIdentifier {name : String} (h : isIdentifier name = true) :
    ∃ c rest, name.toList = c :: rest ∧ isIdentStart c = true ∧
      ∀ c ∈ rest, isIdentContinue c = true := by
  unfold isIdentifier at h
  split at h
  · cases h
  · next c rest split =>
    simp only [Bool.and_eq_true, List.all_eq_true] at h
    exact ⟨c, rest, split, h.1, h.2⟩

theorem writes_ident {name : String} (h : isIdentifier name = true) : Writes name (.ident name) := by
  obtain ⟨c, rest, split, start, more⟩ := exists_of_isIdentifier h
  have start_continues : isIdentContinue c = true := by
    rw [isIdentContinue, start, Bool.true_or]
  refine ⟨.of_plain (by simp [split]) ?_, ?_⟩
  · rw [split, List.forall_mem_cons]
    exact ⟨plain_of_isIdentContinue start_continues,
      fun c mem => plain_of_isIdentContinue (more c mem)⟩
  · intro c' rest' after offset split' apart
    obtain ⟨rfl, rfl⟩ := List.cons_eq_cons.1 (split.symm.trans split')
    have no_quote : ¬(c = '\'' ∨ c = '"') := by
      rintro (rfl | rfl) <;> revert start <;> decide
    have no_space : isIdentContinue ' ' = false := by decide
    obtain ⟨taken, left⟩ := span_append more fun c front => apart c front ▸ no_space
    rw [scanToken, isDigit_of_isIdentStart start, if_neg Bool.false_ne_true, if_neg no_quote,
      if_pos start, scanIdent, taken, left, ← split, String.ofList_toList]

theorem stringSpan_flatMap_escape (cs after : List Char) :
    stringSpan '"' (cs.flatMap Expr.Print.escape ++ '"' :: after) =
      some ⟨cs, cs.flatMap Expr.Print.escape ++ ['"'], after⟩ := by
  induction cs with
  | nil =>
      rw [List.flatMap_nil, List.nil_append, stringSpan.eq_def]
      simp
  | cons c cs ih =>
      rw [List.flatMap_cons, List.append_assoc, List.append_assoc, Expr.Print.escape]
      split
      · next escaped =>
        have kept : unescape c = c := by
          simp only [Expr.Print.isEscaped, Bool.or_eq_true, beq_iff_eq] at escaped
          rcases escaped with ((rfl | rfl) | rfl) | rfl <;> rfl
        rw [List.cons_append, List.cons_append, List.nil_append, stringSpan,
          if_neg (by decide), if_pos rfl, ih, Option.map_some, kept]
        rfl
      · next unescaped =>
        simp only [Expr.Print.isEscaped, Bool.or_eq_true, beq_iff_eq, not_or] at unescaped
        rw [List.singleton_append, stringSpan.eq_def]
        simp only [if_neg unescaped.1.1.1, if_neg unescaped.1.1.2, ih]
        rfl

theorem isChain_flatMap_escape (before : Char) (cs : List Char) :
    (before :: (cs.flatMap Expr.Print.escape ++ ['"'])).IsChain Undoubled := by
  induction cs generalizing before with
  | nil =>
      refine .cons_cons ?_ (.singleton _)
      rintro rfl
      decide
  | cons c cs ih =>
      rw [List.flatMap_cons, List.append_assoc, Expr.Print.escape]
      split
      · refine .cons_cons ?_ (.cons_cons ?_ (ih c))
        · rintro rfl
          decide
        · rintro rfl
          decide
      · next unescaped =>
        simp only [Expr.Print.isEscaped, Bool.or_eq_true, beq_iff_eq, not_or] at unescaped
        refine .cons_cons ?_ (ih c)
        rintro rfl
        exact ⟨unescaped.1.2, unescaped.2⟩

theorem writes_string (s : String) : Writes (Expr.Print.quoted s) (.string s) := by
  have split : (Expr.Print.quoted s).toList =
      '"' :: (s.toList.flatMap Expr.Print.escape ++ ['"']) := String.toList_ofList
  refine ⟨?_, fun c rest after offset split' apart => ?_⟩
  · rw [split]
    refine ⟨List.cons_ne_nil _ _, ?_, ?_, isChain_flatMap_escape _ _⟩
    · rintro c ⟨⟩
      decide
    · rw [← List.cons_append, List.getLast?_concat]
      rintro c ⟨⟩
      decide
  · obtain ⟨rfl, rfl⟩ := List.cons_eq_cons.1 (split.symm.trans split')
    rw [scanToken, if_neg (by decide), if_pos (.inr rfl), scanString, List.append_assoc,
      List.singleton_append, stringSpan_flatMap_escape]
    simp only [String.ofList_toList]

theorem plain_of_numeric {c : Char}
    (numeric : (c.isDigit || c == '.' || c == 'e' || c == 'E' || c == '+' || c == '-') = true) :
    Intact.Plain c := by
  simp only [Bool.or_eq_true, beq_iff_eq] at numeric
  rcases numeric with ((((digit | rfl) | rfl) | rfl) | rfl) | rfl
  · have small : c.toNat < 0x80 := by
      have := toNat_of_isDigit digit
      omega
    apply plain_of_isIdentContinue
    rw [isIdentContinue, isNumeric, if_pos small, digit, Bool.or_true]
  all_goals exact ⟨by decide, by decide, by decide⟩

theorem plain_of_numberSpan {before : Char} {cs : List Char}
    (whole : numberSpan before cs = (cs, [])) : ∀ c ∈ cs, Intact.Plain c := by
  induction cs generalizing before with
  | nil => nofun
  | cons c rest ih =>
      rw [numberSpan] at whole
      split at whole
      · next numeric =>
        simp only [Prod.mk.injEq, List.cons.injEq, true_and] at whole
        rw [List.forall_mem_cons]
        refine ⟨plain_of_numeric ?_, ih (Prod.ext whole.1 whole.2)⟩
        simp only [Bool.or_eq_true, Bool.and_eq_true, beq_iff_eq] at numeric ⊢
        tauto
      · cases whole

theorem numberSpan_apart {before : Char} {cs after : List Char}
    (whole : numberSpan before cs = (cs, [])) (apart : Apart after) :
    numberSpan before (cs ++ after) = (cs, after) := by
  induction cs generalizing before with
  | nil =>
      cases after with
      | nil => rfl
      | cons space after =>
          obtain rfl := apart space rfl
          rw [List.nil_append, numberSpan, if_neg]
          simp
  | cons c rest ih =>
      rw [numberSpan] at whole
      split at whole
      · next numeric =>
        simp only [Prod.mk.injEq, List.cons.injEq, true_and] at whole
        rw [List.cons_append, numberSpan, if_pos numeric, ih (Prod.ext whole.1 whole.2)]
      · cases whole

theorem writes_number {text : String} {d : Decimal} (numeral : Numeral text.toList d) :
    Writes text (.number (d.toBinary64 false)) := by
  obtain ⟨⟨c, rest, split, digit, whole⟩, read⟩ := numeral
  refine ⟨.of_plain (by simp [split]) ?_, ?_⟩
  · rw [split, List.forall_mem_cons]
    exact ⟨plain_of_numeric (by simp [digit]), plain_of_numberSpan whole⟩
  · intro c' rest' after offset split' apart
    obtain ⟨rfl, rfl⟩ := List.cons_eq_cons.1 (split.symm.trans split')
    rw [split] at read
    rw [scanToken, if_pos digit, numberSpan_apart whole apart, scanNumber,
      Binary64.ofDecimalText?, read, Option.map_some]

section Sentences

variable {lexeme : String} {t : Token} {after : List Char} {offset : Nat}

theorem scan_nil (offset : Nat) : scan [] offset = .ok [⟨.eof, offset⟩] := by
  rw [scan.eq_def]

theorem scan_blank {c : Char} (blank : isBlank c = true) (rest : List Char) (offset : Nat) :
    scan (c :: rest) offset = scan rest (offset + c.utf8Size) := by
  rw [scan.eq_def]
  exact if_pos blank

theorem Writes.scan_append (w : Writes lexeme t) (apart : Apart after) :
    scan (lexeme.toList ++ after) offset =
      (scan after (offset + utf8Length lexeme.toList)).map (⟨t, offset⟩ :: ·) := by
  cases split : lexeme.toList with
  | nil => exact (w.nonempty split).elim
  | cons c rest =>
      have no_blank : isBlank c = false := w.first c (by rw [split]; rfl)
      rw [List.cons_append, scan.eq_def]
      simp only [no_blank, Bool.false_eq_true, if_false]
      split
      · next e failed =>
        rw [w.taken c rest after offset split apart] at failed
        cases failed
      · next s taken =>
        rw [w.taken c rest after offset split apart] at taken
        cases taken
        rfl

/-- Scanning inverts joining by spaces. -/
theorem scan_intercalate {lexemes : List String} {tokens : List Token}
    (writes : List.Forall₂ Writes lexemes tokens) (offset : Nat) :
    ∃ located last, scan (" ".intercalate lexemes).toList offset = .ok (located ++ [⟨.eof, last⟩]) ∧
      located.map (·.token) = tokens := by
  rw [String.toList_intercalate]
  induction writes generalizing offset with
  | nil => exact ⟨[], offset, scan_nil offset, rfl⟩
  | @cons lexeme t lexemes tokens first rest ih =>
      cases rest with
      | nil =>
          refine ⟨[⟨t, offset⟩], offset + utf8Length lexeme.toList, ?_, rfl⟩
          rw [List.map_singleton, List.intercalate_singleton, ← List.append_nil lexeme.toList,
            first.scan_append apart_nil, scan_nil, List.append_nil]
          rfl
      | cons second rest =>
          obtain ⟨located, last, scanned, tokens⟩ := ih (offset + utf8Length lexeme.toList + ' '.utf8Size)
          refine ⟨⟨t, offset⟩ :: located, last, ?_, by simp [tokens]⟩
          rw [List.map_cons, List.map_cons, List.intercalate_cons_cons, List.append_assoc]
          have space : " ".toList = [' '] := by decide
          have blank : isBlank ' ' = true := by decide
          rw [space, List.singleton_append, first.scan_append (apart_space _), scan_blank blank,
            ← List.map_cons, ← space, scanned]
          rfl

theorem intact_intercalate {lexemes : List String} {tokens : List Token}
    (writes : List.Forall₂ Writes lexemes tokens) (nonempty : lexemes ≠ []) :
    Intact (" ".intercalate lexemes).toList := by
  rw [String.toList_intercalate]
  induction writes with
  | nil => exact (nonempty rfl).elim
  | cons first rest ih =>
      cases rest with
      | nil =>
          rw [List.map_singleton, List.intercalate_singleton]
          exact first.toIntact
      | cons second rest =>
          have space : " ".toList = [' '] := by decide
          rw [List.map_cons, List.map_cons, List.intercalate_cons_cons, List.append_assoc,
            ← List.map_cons, space, List.singleton_append, ← space]
          exact first.toIntact.append_space (ih (List.cons_ne_nil _ _))

end Sentences

/-- The tokens that scanning can produce: identifiers for names, numbers without sign. -/
def Sourced : Token → Prop
  | .ident name => isIdentifier name = true
  | .number n => n = .infinite false ∨ ∃ x : Finite, x.negative = false ∧ n = .finite x
  | _ => True

theorem sourced_toBinary64 (d : Decimal) : Sourced (.number (d.toBinary64 false)) := by
  have rounded (num den : Nat) : Sourced (.number (.ofQuanta false num den)) := by
    unfold Binary64.ofQuanta
    dsimp only
    split
    · exact .inr ⟨_, rfl, rfl⟩
    · exact .inl rfl
  unfold Decimal.toBinary64
  split
  · exact rounded _ _
  split
  · exact .inl rfl
  split
  · exact rounded _ _
  split <;> exact rounded _ _

theorem sourced_scanToken {c : Char} {rest : List Char} {offset : Nat} {s : Scanned}
    (h : scanToken c rest offset = .ok s) : Sourced s.token := by
  unfold scanToken at h
  split at h
  · unfold scanNumber at h
    split at h
    · next n reads =>
      cases h
      obtain ⟨d, -, rfl⟩ := Option.map_eq_some_iff.1 reads
      exact sourced_toBinary64 d
    · cases h
  split at h
  · unfold scanString at h
    split at h
    · cases h
      trivial
    · cases h
  split at h
  · next start =>
    cases h
    simp only [Sourced, scanIdent, isIdentifier, String.toList_ofList, start, Bool.true_and]
    exact List.all_takeWhile
  · unfold scanPunct at h
    split at h
    · cases h
      trivial
    · cases h

theorem sourced_scan {cs : List Char} {offset : Nat} {ts : List Located}
    (h : scan cs offset = .ok ts) : ∀ t ∈ ts, Sourced t.token := by
  fun_induction scan cs offset generalizing ts with
  | case1 offset =>
      cases h
      exact List.forall_mem_singleton.2 trivial
  | case2 offset c rest blank ih => exact ih h
  | case3 => cases h
  | case4 offset c rest no_blank s taken ih =>
      cases scanned : scan s.after (offset + utf8Length s.lexeme) with
      | error e =>
          rw [scanned] at h
          cases h
      | ok more =>
          rw [scanned] at h
          cases h
          exact List.forall_mem_cons.2 ⟨sourced_scanToken taken, ih scanned⟩

/-- The identifiers are exactly the texts that are scanned as a single name. -/
theorem isIdentifier_iff {name : String} : isIdentifier name = true ↔
    ∃ last, tokenize name = .ok [⟨.ident name, 0⟩, ⟨.eof, last⟩] := by
  constructor
  · intro identifier
    refine ⟨0 + utf8Length name.toList, ?_⟩
    rw [tokenize, ← List.append_nil name.toList, (writes_ident identifier).scan_append apart_nil,
      scan_nil, List.append_nil]
    rfl
  · rintro ⟨last, scanned⟩
    exact sourced_scan scanned _ List.mem_cons_self

end Scan

end Formwork
