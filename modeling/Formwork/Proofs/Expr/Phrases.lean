import Formwork.Proofs.Expr.Grammar

/-!
# Parsers of phrases

The parser of each kind of phrase, and the tokens at which it stops.
-/

namespace Formwork.Expr.Parse

open Grammar

def tighter : Level → List Level
  | .or => [.and, .equality, .relational, .additive, .multiplicative]
  | .and => [.equality, .relational, .additive, .multiplicative]
  | .equality => [.relational, .additive, .multiplicative]
  | .relational => [.additive, .multiplicative]
  | .additive => [.multiplicative]
  | .multiplicative => []

/-- The parser of a phrase with `depth` levels of nesting left. -/
def reader (limit depth : Nat) : Phrase → Parser
  | .conditional => conditional limit depth
  | .level l => operators limit (unary limit depth) (l :: tighter l)
  | .signed => unary limit depth
  | .member => memberOf limit (conditional limit depth)
  | .primary => primary (conditional limit depth)

def deeper (limit : Nat) : Nat → Parser
  | 0 => tooDeep limit
  | depth + 1 => unary limit depth

section Readers

variable {limit depth : Nat}

theorem reader_operand (l : Level) :
    reader limit depth (operand l) = operators limit (unary limit depth) (tighter l) := by
  cases l <;> rfl

theorem reader_level (l : Level) (ts : List Located) :
    reader limit depth (.level l) ts = (do
      let (left, rest) ← reader limit depth (operand l) ts
      chain limit (reader limit depth (operand l)) l limit left rest) := by
  rw [reader_operand, reader, operators]
  cases operators limit (unary limit depth) (tighter l) ts <;> rfl

theorem conditional_zero : conditional limit 0 = tooDeep limit := by
  funext ts
  rw [conditional]

theorem conditional_succ :
    conditional limit (depth + 1) =
      conditionalOf limit (reader limit depth (.level .or)) (conditional limit depth) := by
  funext ts
  rw [conditional]
  rfl

theorem unary_eq :
    unary limit depth = signed limit (deeper limit depth) (conditional limit depth) := by
  funext ts
  cases depth with
  | zero => rw [unary, deeper, conditional_zero]
  | succ depth =>
      rw [unary, deeper, conditional_succ]
      rfl

end Readers

section Tokens

theorem peek_cons (t : Located) (ts : List Located) : peek (t :: ts) = t := rfl

theorem advance_cons {t : Located} (not_end : t.token ≠ .eof) (ts : List Located) :
    advance (t :: ts) = ts := by
  rw [advance, if_neg not_end]

theorem eat?_cons {p : Punct} {t : Located} (is_punct : t.token = .punct p) (ts : List Located) :
    eat? p (t :: ts) = some ts := by
  rw [eat?, if_pos is_punct]

theorem eat?_eq_none {p : Punct} {ts : List Located} :
    eat? p ts = none ↔ (peek ts).token ≠ .punct p := by
  cases ts with
  | nil => exact ⟨nofun, fun _ => rfl⟩
  | cons t rest => simp [eat?, peek]

theorem expect_cons {p : Punct} {t : Located} (is_punct : t.token = .punct p)
    (ts : List Located) : expect p (t :: ts) = .ok ts := by
  rw [expect, eat?_cons is_punct]

theorem operator?_cons {l : Level} {p : Punct} {f : Expr → Expr → Expr} {t : Located}
    (is_punct : t.token = .punct p) (joins : Joins l p f) (ts : List Located) :
    l.operator? (t :: ts) = some (f, ts) := by
  rcases t with ⟨token, offset⟩
  obtain rfl : token = .punct p := is_punct
  simp only [Level.operator?, joins_iff.1 joins, Option.map_some]

theorem operator?_eq_none {l : Level} {ts : List Located}
    (none_joins : ∀ p, (peek ts).token = .punct p → l.join? p = none) :
    l.operator? ts = none := by
  unfold Level.operator?
  split
  · next p offset rest => rw [none_joins p rfl, Option.map_none]
  · rfl

theorem signAt?_cons {op : UnaryOp} {p : Punct} {t : Located} (is_punct : t.token = .punct p)
    (written : p.symbol = op.symbol) (ts : List Located) : signAt? (t :: ts) = some op := by
  cases op with
  | not =>
      obtain rfl : p = .bang := symbol_injective written
      simp only [signAt?, peek, is_punct]
  | negate =>
      obtain rfl : p = .minus := symbol_injective written
      simp only [signAt?, peek, is_punct]

end Tokens

def goesDeeper (p : Punct) : Bool := p == .dot || p == .openBracket

def joinsFrom (l : Level) (p : Punct) : Bool := (l :: tighter l).any fun l => (l.join? p).isSome

/-- The punctuators on which the parser of a phrase continues. -/
def continues : Phrase → Punct → Bool
  | .conditional, p => p == .question || joinsFrom .or p || goesDeeper p
  | .level l, p => joinsFrom l p || goesDeeper p
  | .signed, p => goesDeeper p
  | .member, p => goesDeeper p
  | .primary, _ => false

/-- The parser of a phrase does not continue at these tokens. -/
def Stops (P : Phrase) (rest : List Located) : Prop :=
  ∀ p, (peek rest).token = .punct p → continues P p = false

section Stopping

theorem mem_levels (l : Level) : l ∈ Level.all := by cases l <;> decide

theorem continues_level_of_operand {l : Level} {p : Punct} (h : continues (operand l) p = true) :
    continues (.level l) p = true := by
  have all : ∀ l ∈ Level.all, ∀ p ∈ Punct.all, continues (operand l) p = true →
      continues (.level l) p = true := by decide
  exact all l (mem_levels l) p (Punct.mem_all p) h

theorem continues_operand_of_joins {l : Level} {p : Punct} {f : Expr → Expr → Expr}
    (joins : Joins l p f) : continues (operand l) p = false := by
  have all : ∀ l ∈ Level.all, ∀ p ∈ Punct.all, (l.join? p).isSome = true →
      continues (operand l) p = false := by decide
  exact all l (mem_levels l) p (Punct.mem_all p) (by rw [joins_iff.1 joins, Option.isSome_some])

variable {rest : List Located}

theorem Stops.mono {P Q : Phrase} (h : Stops P rest)
    (imp : ∀ p, continues Q p = true → continues P p = true) : Stops Q rest := by
  intro p front
  have stopped := h p front
  cases goes : continues Q p with
  | false => rfl
  | true =>
      rw [imp p goes] at stopped
      cases stopped

theorem Stops.operand {l : Level} (h : Stops (.level l) rest) : Stops (operand l) rest :=
  h.mono fun _ => continues_level_of_operand

theorem Stops.test (h : Stops .conditional rest) : Stops (.level .or) rest := by
  refine h.mono fun p goes => ?_
  simp only [continues, Bool.or_eq_true] at goes ⊢
  exact goes.imp .inr id

theorem stops_of_punct {P : Phrase} {p : Punct} {t : Located} {ts : List Located}
    (is_punct : t.token = .punct p) (stopped : continues P p = false) : Stops P (t :: ts) := by
  intro q front
  obtain rfl : p = q := Token.punct.inj (is_punct.symm.trans front)
  exact stopped

theorem Stops.operator?_eq_none {l : Level} (h : Stops (.level l) rest) :
    l.operator? rest = none := by
  refine Parse.operator?_eq_none fun p front => ?_
  have stopped := h p front
  simp only [continues, joinsFrom, List.any_cons, Bool.or_eq_false_iff] at stopped
  exact Option.isSome_eq_false_iff.1 stopped.1.1 |> Option.isNone_iff_eq_none.1

theorem Stops.question (h : Stops .conditional rest) : eat? .question rest = none := by
  refine eat?_eq_none.2 fun front => ?_
  cases h _ front

theorem Stops.dot (h : Stops .member rest) : eat? .dot rest = none := by
  refine eat?_eq_none.2 fun front => ?_
  cases h _ front

theorem Stops.openBracket (h : Stops .member rest) : eat? .openBracket rest = none := by
  refine eat?_eq_none.2 fun front => ?_
  cases h _ front

end Stopping

end Formwork.Expr.Parse
