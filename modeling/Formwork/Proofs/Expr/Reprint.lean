import Formwork.Expr.Eval
import Formwork.Proofs.Expr.Correct
import Formwork.Proofs.Expr.Lookahead

/-!
# Compiling the canonical text

The canonical text of a compiled tree compiles to the tree: its lexemes derive the tree, with no
more nesting and no more groups than the original text.
-/

namespace Formwork.Expr

open Grammar Parse Print Scan

namespace Grammar.Phrase

/-- The next tighter phrase. -/
def tighter : Phrase → Phrase
  | .conditional => .level .or
  | .level l => operand l
  | .signed => .member
  | .member => .primary
  | .primary => .primary

theorem rank_tighter {P : Phrase} (not_primary : P ≠ .primary) :
    P.tighter.rank = P.rank + 1 := by
  cases P with
  | level l => cases l <;> rfl
  | conditional | signed | member => rfl
  | primary => exact (not_primary rfl).elim

theorem rank_operand (l : Level) : (operand l).rank = (Phrase.level l).rank + 1 :=
  rank_tighter (P := .level l) nofun

def ofRank : Nat → Phrase
  | 0 => .conditional
  | 1 => .level .or
  | 2 => .level .and
  | 3 => .level .equality
  | 4 => .level .relational
  | 5 => .level .additive
  | 6 => .level .multiplicative
  | 7 => .signed
  | 8 => .member
  | _ => .primary

theorem ofRank_rank (P : Phrase) : ofRank P.rank = P := by
  cases P with
  | level l => cases l <;> rfl
  | conditional | signed | member | primary => rfl

theorem rank_injective {P Q : Phrase} (same : P.rank = Q.rank) : P = Q := by
  rw [← ofRank_rank P, same, ofRank_rank]

theorem rank_le_primary (P : Phrase) : P.rank ≤ Phrase.primary.rank := by
  cases P with
  | level l => cases l <;> decide
  | conditional | signed | member | primary => decide

end Grammar.Phrase

namespace Grammar.Derives

variable {P Q : Phrase} {d : Nat} {ts : List Token} {e : Expr}

theorem of_tighter (no_conditional : 0 < P.rank) (h : Derives P.tighter d ts e) :
    Derives P d ts e := by
  cases P with
  | conditional => cases no_conditional
  | level l => exact .operand h
  | signed => exact .unsigned h
  | member => exact .object h
  | primary => exact h

theorem loosen (h : Derives Q d ts e) (no_conditional : 0 < P.rank) (le : P.rank ≤ Q.rank) :
    Derives P d ts e := by
  obtain ⟨n, distance⟩ := Nat.exists_eq_add_of_le le
  induction n generalizing P with
  | zero => exact Phrase.rank_injective distance ▸ h
  | succ n ih =>
      have not_primary : P ≠ .primary := by
        rintro rfl
        have := Q.rank_le_primary
        omega
      have next := Phrase.rank_tighter not_primary
      exact of_tighter no_conditional (ih (by omega) (by omega) (by omega))

end Grammar.Derives

namespace Print

/-- The nesting of a printed tree as a phrase `P`, when its own lexemes have nesting `d`: one more
for parentheses or for a conditional position, unless the tree is a conditional. -/
def nesting (P : Phrase) (e : Expr) (d : Nat) : Nat :=
  if (P.rank = 0 ∨ e.phrase.rank < P.rank) ∧ e.phrase.rank ≠ 0 then 1 + d else d

section Nesting

variable {P Q : Phrase} {e : Expr} {d : Nat}

theorem le_nesting : d ≤ nesting P e d := by
  unfold nesting
  split <;> omega

theorem nesting_le : nesting P e d ≤ 1 + d := by
  unfold nesting
  split <;> omega

theorem nesting_self (is_phrase : e.phrase = P) : nesting P e d = d := by
  unfold nesting
  rw [if_neg (by rw [is_phrase]; omega)]

theorem nesting_le_self {n : Nat} (is_phrase : e.phrase = P) (le : d ≤ n) : nesting P e d ≤ n :=
  nesting_self is_phrase ▸ le

theorem nesting_mono (no_conditional : 0 < P.rank) (le : P.rank ≤ Q.rank) :
    nesting P e d ≤ nesting Q e d := by
  unfold nesting
  split <;> split <;> omega

theorem nesting_le_conditional : nesting P e d ≤ nesting .conditional e d := by
  have zero : Phrase.conditional.rank = 0 := rfl
  unfold nesting
  split <;> split <;> omega

end Nesting

/-- The lexemes are scanned as tokens that derive the tree. -/
def Spells (P : Phrase) (d : Nat) (lexemes : List String) (e : Expr) : Prop :=
  ∃ ts, List.Forall₂ Writes lexemes ts ∧ Derives P d ts e

namespace Spells

variable {P : Phrase} {d : Nat} {e : Expr} {lexemes : List String}

theorem conditional (h : Spells e.phrase d lexemes e) :
    Spells .conditional (nesting .conditional e d) lexemes e := by
  obtain ⟨ts, writes, derives⟩ := h
  refine ⟨ts, writes, ?_⟩
  have zero : Phrase.conditional.rank = 0 := rfl
  by_cases loosest : e.phrase.rank = 0
  · have is_conditional : e.phrase = .conditional := Phrase.rank_injective loosest
    rw [nesting_self is_conditional]
    exact is_conditional ▸ derives
  · have one_more : nesting .conditional e d = 1 + d := if_pos ⟨.inl rfl, loosest⟩
    have one : (Phrase.level .or).rank = 1 := rfl
    rw [one_more]
    exact .test (derives.loosen (by omega) (by omega))

theorem within (h : Spells e.phrase d lexemes e) :
    Spells P (nesting P e d) (within P e lexemes) e := by
  have zero : Phrase.conditional.rank = 0 := rfl
  unfold Print.within
  split
  · next fits =>
    by_cases loosest : P.rank = 0
    · obtain rfl : P = .conditional := Phrase.rank_injective loosest
      exact h.conditional
    · obtain ⟨ts, writes, derives⟩ := h
      have same : nesting P e d = d := if_neg (by omega)
      rw [same]
      exact ⟨ts, writes, derives.loosen (by omega) fits⟩
  · next looser =>
    obtain ⟨ts, writes, derives⟩ := h.conditional
    have same : nesting P e d = nesting .conditional e d := by
      unfold nesting
      split <;> split <;> omega
    refine ⟨.punct .openParen :: (ts ++ [.punct .closeParen]), ?_, ?_⟩
    · exact .cons (writes_punct .openParen)
        (List.rel_append writes (.cons (writes_punct .closeParen) .nil))
    · rw [same]
      exact derives.group.loosen (by omega) P.rank_le_primary

end Spells

theorem of_joins {l : Level} {p : Punct} {f : Expr → Expr → Expr} (joins : Joins l p f)
    (e e' : Expr) : (f e e').phrase = .level l ∧
      (f e e').lexemes = Print.join l p.symbol e e' e.lexemes e'.lexemes := by
  cases joins with
  | or written =>
      rw [written]
      exact ⟨rfl, rfl⟩
  | and written =>
      rw [written]
      exact ⟨rfl, rfl⟩
  | @binary _ op _ among written =>
      have same_level : op.level = l := by
        cases l with
        | or | and => cases among
        | equality | relational | additive | multiplicative =>
            simp only [binaryOps, List.mem_cons, List.not_mem_nil, or_false] at among
            rcases among with rfl | rfl | rfl | rfl <;> rfl
      subst same_level
      rw [written]
      exact ⟨rfl, rfl⟩

/-! ## Groups -/

theorem writes_unique {w : String} {t t' : Token} (writes : Writes w t) (writes' : Writes w t') :
    t = t' := by
  cases split : w.toList with
  | nil => exact (writes.nonempty split).elim
  | cons c rest =>
      have taken := writes.taken c rest [] 0 split apart_nil
      rw [writes'.taken c rest [] 0 split apart_nil] at taken
      cases taken
      rfl

theorem symbol_of_writes {w : String} {p : Punct} (writes : Writes w (.punct p)) :
    w = p.symbol := by
  cases split : w.toList with
  | nil => exact (writes.nonempty split).elim
  | cons c rest =>
      have takes := takes_of_scanToken (writes.taken c rest [] 0 split apart_nil)
      cases takes with
      | punct _ _ _ _ symbol _ => exact String.toList_inj.1 (split.trans symbol)

/-- A printed group is scanned as one, and nothing else is. -/
theorem count_of_writes {lexemes : List String} {ts : List Token}
    (writes : List.Forall₂ Writes lexemes ts) :
    lexemes.count "(" = ts.count (.punct .openParen) := by
  induction writes with
  | nil => rfl
  | @cons w t _ _ first _ ih =>
      have opens : w = "(" ↔ t = .punct .openParen := by
        constructor
        · rintro rfl
          exact writes_unique first (writes_punct .openParen)
        · rintro rfl
          exact symbol_of_writes first
      rw [List.count_cons, List.count_cons, ih]
      simp only [beq_iff_eq, opens]

section Groups

variable {P Q : Phrase} {e : Expr} {lexemes : List String}

theorem within_of_le (fits : P.rank ≤ e.phrase.rank) : within P e lexemes = lexemes :=
  if_pos fits

theorem count_within_self {n : Nat} (is_phrase : e.phrase = P) (le : lexemes.count "(" ≤ n) :
    (within P e lexemes).count "(" ≤ n := by
  rw [within_of_le (Nat.le_of_eq (congrArg _ is_phrase.symm))]
  exact le

theorem count_within_mono (le : P.rank ≤ Q.rank) :
    (within P e lexemes).count "(" ≤ (within Q e lexemes).count "(" := by
  unfold within
  split
  · split <;> simp
  · rw [if_neg (by omega)]

theorem count_within_le_succ : (within P e lexemes).count "(" ≤ lexemes.count "(" + 1 := by
  unfold within
  split <;> simp

theorem count_symbol_le {ts : List Token} (p : Punct)
    (le : lexemes.count "(" ≤ ts.count (.punct .openParen)) :
    (p.symbol :: lexemes).count "(" ≤ (Token.punct p :: ts).count (.punct .openParen) := by
  have alike := count_of_writes (.cons (writes_punct p) .nil)
  rw [← List.singleton_append, List.count_append, alike,
    ← List.singleton_append (l := ts), List.count_append]
  exact Nat.add_le_add_left le _

end Groups

theorem propertyName?_eq_some {e : Expr} {name : String} (h : propertyName? e = some name) :
    e = .literal (.string name) ∧ isIdentifier name = true := by
  unfold propertyName? at h
  split at h
  · split at h
    · next identifier =>
      cases h
      exact ⟨rfl, identifier⟩
    · cases h
  · cases h

theorem spells_number {x : Finite} (unsigned : x.negative = false) :
    Spells .primary 0 [Print.literal (.ofBinary64 (.finite x))]
      (.literal (.ofBinary64 (.finite x))) := by
  obtain ⟨n, is_number, d, numeral, rounded⟩ := Value.exists_numeral_ofBinary64 unsigned
  have writes : Writes (Print.literal (.ofBinary64 (.finite x))) (.number (.finite x)) := by
    rw [is_number, ← rounded]
    exact writes_number numeral
  exact ⟨_, .cons writes .nil, .number (.finite x)⟩

theorem spells_name {name : String} {e : Expr} (names : Names name e)
    (identifier : isIdentifier name = true) : Spells .primary 0 e.lexemes e := by
  cases names with
  | true => exact ⟨_, .cons (writes_ident identifier) .nil, .name .true⟩
  | false => exact ⟨_, .cons (writes_ident identifier) .nil, .name .false⟩
  | null => exact ⟨_, .cons (writes_ident identifier) .nil, .name .null⟩
  | undefined =>
      have null : isIdentifier "null" = true := by decide
      exact ⟨_, .cons (writes_ident null) .nil, .name .null⟩
  | ordinary no_keyword =>
      exact ⟨_, .cons (writes_ident identifier) .nil, .name (.ordinary no_keyword)⟩

section Parts

variable {e e' e'' : Expr} {d d' d'' : Nat}

theorem spells_conditional (test : Spells e.phrase d e.lexemes e)
    (consequent : Spells e'.phrase d' e'.lexemes e')
    (alternate : Spells e''.phrase d'' e''.lexemes e'') :
    Spells .conditional (1 + max (nesting (.level .or) e d)
      (max (nesting .conditional e' d') (nesting .conditional e'' d'')))
      (Expr.conditional e e' e'').lexemes (.conditional e e' e'') := by
  obtain ⟨ts, writes, derives⟩ := test.within (P := .level .or)
  obtain ⟨ts', writes', derives'⟩ := consequent.conditional
  obtain ⟨ts'', writes'', derives''⟩ := alternate.conditional
  refine ⟨_, ?_, .choice derives derives' derives''⟩
  exact List.rel_append writes (.cons (writes_punct .question)
    (List.rel_append writes' (.cons (writes_punct .colon) writes'')))

theorem spells_join {l : Level} {p : Punct} {f : Expr → Expr → Expr} (joins : Joins l p f)
    (left : Spells e.phrase d e.lexemes e) (right : Spells e'.phrase d' e'.lexemes e') :
    Spells (f e e').phrase (max (nesting (.level l) e d) (nesting (operand l) e' d'))
      (f e e').lexemes (f e e') := by
  obtain ⟨is_phrase, is_join⟩ := of_joins joins e e'
  obtain ⟨ts, writes, derives⟩ := left.within (P := .level l)
  obtain ⟨ts', writes', derives'⟩ := right.within (P := operand l)
  rw [is_phrase, is_join]
  refine ⟨_, ?_, .join derives joins derives'⟩
  exact List.rel_append writes (.cons (writes_punct p) writes')

theorem spells_unary {op : UnaryOp} {p : Punct} (written : p.symbol = op.symbol)
    (operand : Spells e.phrase d e.lexemes e) :
    Spells .signed (1 + nesting .signed e d) (Expr.unary op e).lexemes (.unary op e) := by
  obtain ⟨ts, writes, derives⟩ := operand.within (P := .signed)
  exact ⟨_, .cons (written ▸ writes_punct p) writes, .sign written derives⟩

theorem spells_property {name : String} (identifier : isIdentifier name = true)
    (object : Spells e.phrase d e.lexemes e) :
    Spells .member (nesting .member e d) (Expr.member e (.literal (.string name))).lexemes
      (.member e (.literal (.string name))) := by
  obtain ⟨ts, writes, derives⟩ := object.within (P := .member)
  refine ⟨_, ?_, .property derives name⟩
  simp only [lexemes, access, propertyName?, identifier, if_true]
  exact List.rel_append writes
    (.cons (writes_punct .dot) (.cons (writes_ident identifier) .nil))

theorem spells_index (no_name : propertyName? e' = none)
    (object : Spells e.phrase d e.lexemes e) (property : Spells e'.phrase d' e'.lexemes e') :
    Spells .member (max (nesting .member e d) (nesting .conditional e' d'))
      (Expr.member e e').lexemes (.member e e') := by
  obtain ⟨ts, writes, derives⟩ := object.within (P := .member)
  obtain ⟨ts', writes', derives'⟩ := property.conditional
  refine ⟨_, ?_, .index derives derives'⟩
  simp only [lexemes, access, no_name]
  exact List.rel_append writes (.cons (writes_punct .openBracket)
    (List.rel_append writes' (.cons (writes_punct .closeBracket) .nil)))

end Parts

/-- A derived tree prints to lexemes that derive it, with no more nesting. -/
theorem exists_spells {P : Phrase} {d : Nat} {ts : List Token} {e : Expr}
    (derives : Derives P d ts e) (sourced : ∀ t ∈ ts, Sourced t) :
    ∃ own, Spells e.phrase own e.lexemes e ∧ nesting P e own ≤ d := by
  induction derives with
  | test h ih =>
      obtain ⟨own, spells, le⟩ := ih sourced
      refine ⟨own, spells, nesting_le.trans ?_⟩
      have := le_nesting.trans le
      omega
  | choice test consequent alternate ih ih' ih'' =>
      simp only [List.forall_mem_append, List.forall_mem_cons] at sourced
      obtain ⟨own, spells, le⟩ := ih sourced.1
      obtain ⟨own', spells', le'⟩ := ih' sourced.2.2.1
      obtain ⟨own'', spells'', le''⟩ := ih'' sourced.2.2.2.2
      refine ⟨_, spells_conditional spells spells' spells'', nesting_le_self rfl ?_⟩
      omega
  | @operand l d ts e h ih =>
      obtain ⟨own, spells, le⟩ := ih sourced
      have tighter := Phrase.rank_operand l
      exact ⟨own, spells, (nesting_mono (by cases l <;> decide) (by omega)).trans le⟩
  | @join l p f d d' ts ts' e e' left joins right ih ih' =>
      simp only [List.forall_mem_append, List.forall_mem_cons] at sourced
      obtain ⟨own, spells, le⟩ := ih sourced.1
      obtain ⟨own', spells', le'⟩ := ih' sourced.2.2
      refine ⟨_, spells_join joins spells spells', nesting_le_self (of_joins joins e e').1 ?_⟩
      omega
  | sign written h ih =>
      obtain ⟨own, spells, le⟩ := ih (List.forall_mem_cons.1 sourced).2
      refine ⟨_, spells_unary written spells, nesting_le_self rfl ?_⟩
      omega
  | unsigned h ih =>
      obtain ⟨own, spells, le⟩ := ih sourced
      exact ⟨own, spells, (nesting_mono (by decide) (by decide)).trans le⟩
  | object h ih =>
      obtain ⟨own, spells, le⟩ := ih sourced
      exact ⟨own, spells, (nesting_mono (by decide) (by decide)).trans le⟩
  | property object name ih =>
      simp only [List.forall_mem_append, List.forall_mem_cons] at sourced
      obtain ⟨own, spells, le⟩ := ih sourced.1
      exact ⟨_, spells_property sourced.2.2.1 spells, nesting_le_self rfl le⟩
  | @index d d' ts ts' e e' object property ih ih' =>
      simp only [List.forall_mem_append, List.forall_mem_cons] at sourced
      obtain ⟨own, spells, le⟩ := ih sourced.1
      obtain ⟨own', spells', le'⟩ := ih' sourced.2.2.1
      cases named : propertyName? e' with
      | some name =>
          obtain ⟨rfl, identifier⟩ := propertyName?_eq_some named
          refine ⟨_, spells_property identifier spells, nesting_le_self rfl ?_⟩
          omega
      | none =>
          refine ⟨_, spells_index named spells spells', nesting_le_self rfl ?_⟩
          omega
  | number n =>
      refine ⟨0, ?_, Nat.le_of_eq (nesting_self rfl)⟩
      rcases List.forall_mem_singleton.1 sourced with rfl | ⟨x, unsigned, rfl⟩
      · exact spells_name .null (by decide)
      · exact spells_number unsigned
  | string s =>
      refine ⟨0, ?_, Nat.le_of_eq (nesting_self rfl)⟩
      exact ⟨_, .cons (writes_string s) .nil, .string s⟩
  | @name name e names =>
      have identifier := List.forall_mem_singleton.1 sourced
      have is_phrase : e.phrase = .primary := by cases names <;> rfl
      exact ⟨0, is_phrase ▸ spells_name names identifier, Nat.le_of_eq (nesting_self is_phrase)⟩
  | group h ih =>
      simp only [List.forall_mem_append, List.forall_mem_cons] at sourced
      obtain ⟨own, spells, le⟩ := ih sourced.2.1
      exact ⟨own, spells, nesting_le_conditional.trans le⟩

theorem count_dot {name : String} (identifier : isIdentifier name = true) :
    [".", name].count "(" = 0 :=
  count_of_writes (.cons (writes_punct .dot) (.cons (writes_ident identifier) .nil))

theorem Spells.count_leaf {w : String} {e : Expr} (spells : Spells .primary 0 [w] e) :
    [w].count "(" = 0 := by
  obtain ⟨ts, writes, derives⟩ := spells
  rw [count_of_writes writes]
  obtain ⟨t, rest, -, is_nil, rfl⟩ := List.forall₂_cons_left_iff.1 writes
  obtain rfl := List.forall₂_nil_left_iff.1 is_nil
  generalize only : [t] = ts at derives
  cases derives with
  | number | string | name => rfl
  | group => simp at only

/-- A member is accessed by name just if its key is scanned as one identifier. -/
theorem access_eq_iff {property : Expr} {index : List String} {name : String} :
    access property index = [".", name] ↔ property = .literal (.string name) ∧
      ∃ last, tokenize name = .ok [⟨.ident name, 0⟩, ⟨.eof, last⟩] := by
  rw [← isIdentifier_iff]
  constructor
  · intro by_name
    unfold access at by_name
    split at by_name
    · next named =>
      cases by_name
      exact propertyName?_eq_some named
    · exact absurd (List.cons.inj by_name).1 (by decide)
  · rintro ⟨rfl, identifier⟩
    simp only [access, propertyName?, identifier, if_true]

/-- The print of a tree has the fewest groups of all derivations of it. -/
theorem count_within_le {P : Phrase} {d : Nat} {ts : List Token} {e : Expr}
    (derives : Derives P d ts e) (sourced : ∀ t ∈ ts, Sourced t) :
    (within P e e.lexemes).count "(" ≤ ts.count (.punct .openParen) := by
  induction derives with
  | test h ih => exact (count_within_mono (Nat.zero_le _)).trans (ih sourced)
  | choice test consequent alternate ih ih' ih'' =>
      simp only [List.forall_mem_append, List.forall_mem_cons] at sourced
      have first := ih sourced.1
      have second := ih' sourced.2.2.1
      have third := ih'' sourced.2.2.2.2
      rw [within_of_le (Nat.zero_le _)] at second third ⊢
      have behind := count_symbol_le .colon third
      rw [lexemes, List.count_append, List.count_append]
      refine Nat.add_le_add first (count_symbol_le .question ?_)
      rw [List.count_append, List.count_append]
      exact Nat.add_le_add second behind
  | @operand l d ts e h ih =>
      have tighter := Phrase.rank_operand l
      exact (count_within_mono (by omega)).trans (ih sourced)
  | @join l p f d d' ts ts' e e' left joins right ih ih' =>
      simp only [List.forall_mem_append, List.forall_mem_cons] at sourced
      obtain ⟨is_phrase, is_join⟩ := of_joins joins e e'
      have first := ih sourced.1
      have second := ih' sourced.2.2
      refine count_within_self is_phrase ?_
      rw [is_join, Print.join, List.count_append, List.count_append]
      exact Nat.add_le_add first (count_symbol_le p second)
  | @sign op p d ts e written h ih =>
      refine count_within_self rfl ?_
      rw [lexemes, ← written]
      exact count_symbol_le p (ih (List.forall_mem_cons.1 sourced).2)
  | unsigned h ih => exact (count_within_mono (Nat.le_succ _)).trans (ih sourced)
  | object h ih => exact (count_within_mono (Nat.le_succ _)).trans (ih sourced)
  | property object name ih =>
      simp only [List.forall_mem_append, List.forall_mem_cons] at sourced
      refine count_within_self rfl ?_
      rw [lexemes, List.count_append, List.count_append]
      refine Nat.add_le_add (ih sourced.1) ?_
      have identifier : isIdentifier name = true := sourced.2.2.1
      simp only [access, propertyName?, identifier, if_true, count_dot, Nat.zero_le]
  | index object property ih ih' =>
      simp only [List.forall_mem_append, List.forall_mem_cons] at sourced
      have inside := ih' sourced.2.2.1
      rw [within_of_le (Nat.zero_le _)] at inside
      refine count_within_self rfl ?_
      rw [lexemes, List.count_append, List.count_append]
      refine Nat.add_le_add (ih sourced.1) ?_
      unfold access
      split
      · next named => simp only [count_dot (propertyName?_eq_some named).2, Nat.zero_le]
      · refine count_symbol_le .openBracket ?_
        rw [List.count_append, List.count_append]
        exact Nat.add_le_add inside (Nat.le_refl _)
  | number n =>
      rcases List.forall_mem_singleton.1 sourced with rfl | ⟨x, unsigned, rfl⟩
      · exact Nat.le_of_eq (spells_name .null (by decide)).count_leaf
      · exact Nat.le_of_eq (spells_number unsigned).count_leaf
  | string s =>
      exact Nat.le_of_eq (Spells.count_leaf ⟨_, .cons (writes_string s) .nil, .string s⟩)
  | name names =>
      have identifier := List.forall_mem_singleton.1 sourced
      have spells := spells_name names identifier
      cases names <;> exact Nat.le_of_eq spells.count_leaf
  | group h ih =>
      simp only [List.forall_mem_append, List.forall_mem_cons] at sourced
      have inner := ih sourced.2.1
      rw [within_of_le (Nat.zero_le _)] at inner
      refine count_within_le_succ.trans ?_
      simp
      omega

end Print

theorem parse_print {d : Nat} {e : Expr} (spells : Spells .conditional d e.lexemes e)
    (fits : Fits maxDepth maxDepth d e) : parse e.print = .ok e := by
  obtain ⟨ts, writes, derives⟩ := spells
  obtain ⟨located, last, scanned, tokens⟩ := scan_intercalate writes 0
  have before : ∀ t ∈ located, t.token ≠ .eof := by
    intro t mem
    refine derives.ne_eof _ ?_
    rw [← tokens]
    exact List.mem_map_of_mem mem
  have whole : sentence (located ++ [⟨.eof, last⟩]) = ts := by
    rw [sentence_append before rfl, tokens]
  have tokenized : tokenize e.print = .ok (located ++ [⟨.eof, last⟩]) := scanned
  rw [parse, tokenized]
  change parseTokens (located ++ [⟨.eof, last⟩]) = .ok e
  rw [parseTokens_of_derives (whole.symm ▸ derives), if_pos fits]

theorem opens_print {d : Nat} {e : Expr} (spells : Spells .conditional d e.lexemes e) :
    opens e.print = e.lexemes.count "(" := by
  obtain ⟨ts, writes, -⟩ := spells
  obtain ⟨located, last, scanned, tokens⟩ := scan_intercalate writes 0
  have tokenized : tokenize e.print = .ok (located ++ [⟨.eof, last⟩]) := scanned
  rw [opens, tokenized, count_of_writes writes, ← tokens]
  simp only [List.map_append, List.count_append]
  rfl

theorem strip_print {d : Nat} {e : Expr} (spells : Spells .conditional d e.lexemes e) :
    Delimiter.strip e.print = e.print := by
  obtain ⟨ts, writes, derives⟩ := spells
  have nonempty : e.lexemes ≠ [] := by
    intro nothing
    rw [nothing] at writes
    cases writes
    exact derives.ne_nil rfl
  rw [Delimiter.strip, print, (intact_intercalate writes nonempty).stripChars, String.ofList_toList]

end Formwork.Expr

namespace Formwork.Expression

open Formwork.Expr Formwork.Expr.Grammar Formwork.Expr.Parse Formwork.Expr.Print Scan

theorem exists_of_compile {text : String} {e : Expression} (compiled : compile text = .ok e) :
    ∃ d located, tokenize e.source = .ok located ∧
      Derives .conditional d (sentence located) e.tree ∧
      (∀ t ∈ sentence located, Sourced t) ∧ Fits maxDepth maxDepth d e.tree := by
  unfold compile at compiled
  obtain ⟨tree, parsed, built⟩ := ok_of_bind compiled
  obtain rfl : ⟨Delimiter.strip text, tree⟩ = e := Except.ok.inj built
  obtain ⟨located, scanned, parsed⟩ := ok_of_bind parsed
  obtain ⟨d, derives⟩ := derives_of_parseTokens parsed
  refine ⟨d, located, scanned, derives, ?_, ?_⟩
  · intro t mem
    obtain ⟨l, found, rfl⟩ := List.mem_map.1 mem
    exact sourced_scan scanned l (List.takeWhile_subset _ found)
  · rw [parseTokens_of_derives derives] at parsed
    by_contra deep
    rw [if_neg deep] at parsed
    cases parsed

theorem count_lexemes_le {text : String} {e : Expression} (compiled : compile text = .ok e) :
    e.tree.lexemes.count "(" ≤ opens e.source := by
  obtain ⟨d, located, scanned, derives, sourced, -⟩ := exists_of_compile compiled
  have fewest := count_within_le derives sourced
  rw [within_of_le (Nat.zero_le _)] at fewest
  rw [opens, scanned]
  exact fewest.trans (((List.takeWhile_sublist _).map _).count_le _)

/-- Printing inverts compiling: the canonical text of a compiled tree compiles to the same tree,
is unchanged by stripping and is not too deep. It has the fewest groups of all texts that
compile to the tree, and a member access is printed by name exactly when its key is scanned as
one identifier. -/
theorem compile_print {text : String} {e : Expression} (compiled : compile text = .ok e) :
    compile e.tree.print = .ok ⟨e.tree.print, e.tree⟩ ∧
    (∀ text' e', compile text' = .ok e' → e'.tree = e.tree →
      opens e.tree.print ≤ opens e'.source) ∧
    ∀ property index name, Print.access property index = [".", name] ↔
      property = .literal (.string name) ∧
        ∃ last, tokenize name = .ok [⟨.ident name, 0⟩, ⟨.eof, last⟩] := by
  obtain ⟨d, located, -, derives, sourced, fits⟩ := exists_of_compile compiled
  obtain ⟨own, spells, le⟩ := exists_spells derives sourced
  have printed := spells.conditional
  have fits_printed : Fits maxDepth maxDepth (nesting .conditional e.tree own) e.tree :=
    ⟨le.trans fits.1, fits.2⟩
  refine ⟨?_, fun text' e' compiled' same => ?_, fun property index name => access_eq_iff⟩
  · rw [compile, strip_print printed, parse_print printed fits_printed]
    rfl
  · rw [opens_print printed, ← same]
    exact count_lexemes_le compiled'

end Formwork.Expression

namespace Formwork.Sample

/-- Redundant parentheses are dropped and the needed ones kept; the brace in a string is escaped. -/
theorem compile_print_regroups :
    let text := "\x7b\x7b (a['b']) - (b - ((1.50e-7))) ? '\x7bx' : -(-c) \x7d\x7d"
    let printed := "a . b - ( b - 1.5e-7 ) ? \"\\\x7bx\" : - - c"
    ∃ e, Expression.compile text = .ok e ∧ e.tree.print = printed ∧
      Expression.compile printed = .ok ⟨printed, e.tree⟩ := by
  intro text printed
  have prints : (Expression.compile text).toOption.map (·.tree.print) = some printed := by
    decide +kernel
  cases compiled : Expression.compile text with
  | error e =>
      rw [compiled] at prints
      cases prints
  | ok e =>
      rw [compiled] at prints
      have is_printed : e.tree.print = printed := Option.some.inj prints
      exact ⟨e, rfl, is_printed, is_printed ▸ (Expression.compile_print compiled).1⟩

end Formwork.Sample
