import Formwork.Expr.Parse

/-!
# The grammar of expressions

A stratified grammar over tokens: conditionals, six levels of left-associative operators, signs,
member access, primaries. `Derives` also counts the nesting of conditionals and signs.
-/

namespace Formwork.Expr.Grammar

open Parse (Level)

inductive Phrase where
  | conditional
  | level (l : Level)
  | signed
  | member
  | primary

/-- The operands of a level. -/
def operand : Level → Phrase
  | .or => .level .and
  | .and => .level .equality
  | .equality => .level .relational
  | .relational => .level .additive
  | .additive => .level .multiplicative
  | .multiplicative => .signed

/-- Induction over the levels, from the signed phrases upwards. -/
theorem level_induction {motive : Phrase → Prop} (signed : motive .signed)
    (step : ∀ l, motive (operand l) → motive (.level l)) (l : Level) : motive (.level l) := by
  have multiplicative := step .multiplicative signed
  have additive := step .additive multiplicative
  have relational := step .relational additive
  have equality := step .equality relational
  have and := step .and equality
  have or := step .or and
  cases l <;> assumption

def binaryOps : Level → List BinaryOp
  | .or | .and => []
  | .equality => [.looseEqual, .looseNotEqual, .strictEqual, .strictNotEqual]
  | .relational => [.less, .lessEqual, .greater, .greaterEqual]
  | .additive => [.add, .subtract]
  | .multiplicative => [.multiply, .divide, .remainder]

/-- The operator `p` of a level and its constructor of trees. -/
inductive Joins : Level → Punct → (Expr → Expr → Expr) → Prop where
  | or {p : Punct} (written : p.symbol = LogicalOp.or.symbol) : Joins .or p (.logical .or)
  | and {p : Punct} (written : p.symbol = LogicalOp.and.symbol) : Joins .and p (.logical .and)
  | binary {l : Level} {op : BinaryOp} {p : Punct} (among : op ∈ binaryOps l)
      (written : p.symbol = op.symbol) : Joins l p (.binary op)

inductive Names : String → Expr → Prop where
  | true : Names "true" (.literal (.bool true))
  | false : Names "false" (.literal (.bool false))
  | null : Names "null" (.literal .null)
  | undefined : Names "undefined" (.literal .null)
  | ordinary {name : String} (no_keyword : name ∉ ["true", "false", "null", "undefined"]) :
      Names name (.variable name)

/-- The tokens derive the tree as a phrase `P`, with nesting `d`. -/
inductive Derives : Phrase → Nat → List Token → Expr → Prop where
  | test {d : Nat} {ts : List Token} {e : Expr} (h : Derives (.level .or) d ts e) :
      Derives .conditional (1 + d) ts e
  | choice {d d' d'' : Nat} {ts ts' ts'' : List Token} {e e' e'' : Expr}
      (test : Derives (.level .or) d ts e) (consequent : Derives .conditional d' ts' e')
      (alternate : Derives .conditional d'' ts'' e'') :
      Derives .conditional (1 + max d (max d' d''))
        (ts ++ .punct .question :: (ts' ++ .punct .colon :: ts'')) (.conditional e e' e'')
  | operand {l : Level} {d : Nat} {ts : List Token} {e : Expr} (h : Derives (operand l) d ts e) :
      Derives (.level l) d ts e
  | join {l : Level} {p : Punct} {f : Expr → Expr → Expr} {d d' : Nat} {ts ts' : List Token}
      {e e' : Expr} (left : Derives (.level l) d ts e) (joins : Joins l p f)
      (right : Derives (Grammar.operand l) d' ts' e') :
      Derives (.level l) (max d d') (ts ++ .punct p :: ts') (f e e')
  | sign {op : UnaryOp} {p : Punct} {d : Nat} {ts : List Token} {e : Expr}
      (written : p.symbol = op.symbol) (h : Derives .signed d ts e) :
      Derives .signed (1 + d) (.punct p :: ts) (.unary op e)
  | unsigned {d : Nat} {ts : List Token} {e : Expr} (h : Derives .member d ts e) :
      Derives .signed d ts e
  | object {d : Nat} {ts : List Token} {e : Expr} (h : Derives .primary d ts e) :
      Derives .member d ts e
  | property {d : Nat} {ts : List Token} {e : Expr} (object : Derives .member d ts e)
      (name : String) :
      Derives .member d (ts ++ [.punct .dot, .ident name]) (.member e (.literal (.string name)))
  | index {d d' : Nat} {ts ts' : List Token} {e e' : Expr} (object : Derives .member d ts e)
      (property : Derives .conditional d' ts' e') :
      Derives .member (max d d') (ts ++ .punct .openBracket :: (ts' ++ [.punct .closeBracket]))
        (.member e e')
  | number (n : Binary64) : Derives .primary 0 [.number n] (.literal (.ofBinary64 n))
  | string (s : String) : Derives .primary 0 [.string s] (.literal (.string s))
  | name {name : String} {e : Expr} (names : Names name e) : Derives .primary 0 [.ident name] e
  | group {d : Nat} {ts : List Token} {e : Expr} (h : Derives .conditional d ts e) :
      Derives .primary d (.punct .openParen :: (ts ++ [.punct .closeParen])) e

theorem symbol_injective {p q : Punct} (h : p.symbol = q.symbol) : p = q := by
  have all : ∀ p ∈ Punct.all, ∀ q ∈ Punct.all, p.symbol = q.symbol → p = q := by decide +kernel
  exact all p (Punct.mem_all p) q (Punct.mem_all q) h

def punctOf : BinaryOp → Punct
  | .add => .plus
  | .subtract => .minus
  | .multiply => .star
  | .divide => .slash
  | .remainder => .percent
  | .less => .less
  | .lessEqual => .lessEqual
  | .greater => .greater
  | .greaterEqual => .greaterEqual
  | .looseEqual => .looseEqual
  | .looseNotEqual => .looseNotEqual
  | .strictEqual => .strictEqual
  | .strictNotEqual => .strictNotEqual

theorem symbol_punctOf (op : BinaryOp) : (punctOf op).symbol = op.symbol := by cases op <;> rfl

theorem join?_punctOf {l : Level} {op : BinaryOp} (among : op ∈ binaryOps l) :
    l.join? (punctOf op) = some (.binary op) := by
  cases l with
  | or | and => cases among
  | equality | relational | additive | multiplicative =>
      simp only [binaryOps, List.mem_cons, List.not_mem_nil, or_false] at among
      rcases among with rfl | rfl | rfl | rfl <;> rfl

/-- The parser's table of operators is that of the grammar. -/
theorem joins_iff {l : Level} {p : Punct} {f : Expr → Expr → Expr} :
    Joins l p f ↔ l.join? p = some f := by
  constructor
  · intro joins
    cases joins with
    | or written =>
        obtain rfl : p = .or := symbol_injective written
        rfl
    | and written =>
        obtain rfl : p = .and := symbol_injective written
        rfl
    | binary among written =>
        rw [symbol_injective (written.trans (symbol_punctOf _).symm)]
        exact join?_punctOf among
  · intro joined
    unfold Level.join? at joined
    split at joined
    · cases joined
      exact .or rfl
    · cases joined
      exact .and rfl
    all_goals
      cases joined
      try exact .binary (by simp [binaryOps]) rfl

theorem names_iff {name : String} {e : Expr} : Names name e ↔ Parse.keyword name = e := by
  constructor
  · intro names
    cases names with
    | true => rfl
    | false => rfl
    | null => rfl
    | undefined => rfl
    | ordinary no_keyword =>
        simp only [List.mem_cons, List.not_mem_nil, or_false, not_or] at no_keyword
        obtain ⟨not_true, not_false, not_null, not_undefined⟩ := no_keyword
        simp [Parse.keyword, not_true, not_false, not_null, not_undefined]
  · rintro rfl
    unfold Parse.keyword
    split
    · next is_true => exact is_true ▸ .true
    split
    · next is_false => exact is_false ▸ .false
    split
    · next is_null => exact is_null.elim (fun h => h ▸ .null) fun h => h ▸ .undefined
    · next not_true not_false not_null =>
      rw [not_or] at not_null
      exact .ordinary (by simp [not_true, not_false, not_null])

theorem one_le_height (e : Expr) : 1 ≤ e.height := by
  cases e <;> simp only [Expr.height] <;> omega

theorem height_of_joins {l : Level} {p : Punct} {f : Expr → Expr → Expr} (joins : Joins l p f)
    (e e' : Expr) : (f e e').height = 1 + max e.height e'.height := by
  cases joins <;> rfl

namespace Derives

variable {P : Phrase} {d : Nat} {ts : List Token} {e : Expr}

theorem ne_eof (h : Derives P d ts e) : ∀ t ∈ ts, t ≠ .eof := by
  induction h with
  | test h ih => exact ih
  | choice test consequent alternate ih ih' ih'' =>
      simp only [List.forall_mem_append, List.forall_mem_cons]
      exact ⟨ih, nofun, ih', nofun, ih''⟩
  | operand h ih => exact ih
  | join left joins right ih ih' =>
      simp only [List.forall_mem_append, List.forall_mem_cons]
      exact ⟨ih, nofun, ih'⟩
  | sign written h ih =>
      simp only [List.forall_mem_cons]
      exact ⟨nofun, ih⟩
  | unsigned h ih => exact ih
  | object h ih => exact ih
  | property object name ih =>
      simp only [List.forall_mem_append, List.forall_mem_cons]
      exact ⟨ih, nofun, nofun, nofun⟩
  | index object property ih ih' =>
      simp only [List.forall_mem_append, List.forall_mem_cons]
      exact ⟨ih, nofun, ih', nofun, nofun⟩
  | number n => exact List.forall_mem_singleton.2 nofun
  | string s => exact List.forall_mem_singleton.2 nofun
  | name names => exact List.forall_mem_singleton.2 nofun
  | group h ih =>
      simp only [List.forall_mem_append, List.forall_mem_cons]
      exact ⟨nofun, ih, nofun, nofun⟩

theorem ne_nil (h : Derives P d ts e) : ts ≠ [] := by
  induction h with
  | test h ih => exact ih
  | choice => simp
  | operand h ih => exact ih
  | join => simp
  | sign => simp
  | unsigned h ih => exact ih
  | object h ih => exact ih
  | property => simp
  | index => simp
  | number => simp
  | string => simp
  | name => simp
  | group => simp

theorem starts_unsigned (h : Derives P d ts e) (unsigned : P = .member ∨ P = .primary) :
    ∃ t rest, ts = t :: rest ∧ ∀ p, t = .punct p → p = .openParen := by
  induction h with
  | test | choice | operand | join | sign | unsigned => simp at unsigned
  | object h ih => exact ih (.inr rfl)
  | property object name ih =>
      obtain ⟨t, rest, rfl, start⟩ := ih unsigned
      exact ⟨t, _, rfl, start⟩
  | index object property ih ih' =>
      obtain ⟨t, rest, rfl, start⟩ := ih unsigned
      exact ⟨t, _, rfl, start⟩
  | number n => exact ⟨_, _, rfl, nofun⟩
  | string s => exact ⟨_, _, rfl, nofun⟩
  | name names => exact ⟨_, _, rfl, nofun⟩
  | group h ih =>
      refine ⟨_, _, rfl, ?_⟩
      rintro p ⟨⟩
      rfl

end Derives

end Formwork.Expr.Grammar
