import Formwork.Proofs.Expr.Phrases

/-!
# The parser with counters

The parser as a computation on a cursor: a position in one array of tokens, a depth incremented by
conditionals and signs, and heights computed from those of the children. Its recursion has no bound
of its own, so that termination is a theorem.
-/

namespace Formwork.Expr

open Parse (Level)
open Grammar

/-- The position in the tokens, the current depth, and the peak of the depth so far. -/
structure Cursor where
  position : Nat
  depth : Nat
  peak : Nat

/-- A computation on cursors that may fail; `none` stands for divergence. -/
abbrev Walker := ExceptT ExpressionError (StateT Cursor Option)

namespace Cursor

def start (position depth : Nat) : Cursor := ⟨position, depth, depth⟩

def next (c : Cursor) : Cursor := { c with position := c.position + 1 }

def enter (c : Cursor) : Cursor :=
  { c with depth := c.depth + 1, peak := max c.peak (c.depth + 1) }

def leave (c : Cursor) : Cursor := { c with depth := c.depth - 1 }

end Cursor

namespace Walker

variable {α β : Type}

def walk (w : Walker α) (c : Cursor) : Option (Except ExpressionError α × Cursor) :=
  (ExceptT.run w).run c

section Tokens

variable (tokens : List Located)

/-- The token at the position, or the last one. -/
def ahead (c : Cursor) : Located := Parse.peek (tokens.drop (min c.position (tokens.length - 1)))

def peek : Walker Located := do
  return ahead tokens (← get)

/-- Moves to the next position, unless the token is the end. -/
def advance : Walker Located := do
  let t ← peek tokens
  if t.token ≠ .eof then modify Cursor.next
  return t

def eat (p : Punct) : Walker Bool := do
  let t ← peek tokens
  if t.token = .punct p then
    let _ ← advance tokens
    return true
  else return false

def unexpected (expected : Expectation) (t : Located) : ExpressionError :=
  .unexpectedToken expected t.token t.offset

def expect (p : Punct) : Walker Unit := do
  if ← eat tokens p then return ()
  else throw (unexpected (.punct p) (← peek tokens))

def operator? (l : Level) : Walker (Option (Expr → Expr → Expr)) := do
  match (← peek tokens).token with
  | .punct p => return l.join? p
  | _ => return none

def sign? : Walker (Option UnaryOp) := do
  match (← peek tokens).token with
  | .punct .bang => return some .not
  | .punct .minus => return some .negate
  | _ => return none

/-- Increments the depth, and fails when it exceeds the limit. -/
def enter : Walker Unit := do
  modify Cursor.enter
  if maxDepth < (← get).depth then throw (.tooDeep maxDepth)

def leave : Walker Unit := modify Cursor.leave

def parent (tree : Expr) (below : Nat) : Walker Parsed := Parsed.parent maxDepth tree below

end Tokens

end Walker

section Phrases

open Walker

variable (tokens : List Located)

mutual

def Grammar.Phrase.read : Phrase → Walker Parsed
  | .conditional => do
    enter
    let test ← Phrase.level .or |>.read
    let parsed ← test |>.branches
    leave
    return parsed
  | .level l => do
    let left ← operand l |>.read
    left |>.joins l
  | .signed => do
    match ← sign? tokens with
    | none => Phrase.member |>.read
    | some op =>
      let _ ← advance tokens
      enter
      let operand ← Phrase.signed |>.read
      leave
      parent (.unary op operand.tree) operand.height
  | .member => do
    let object ← Phrase.primary |>.read
    object |>.accesses
  | .primary => do
    let t ← advance tokens
    match t.token with
    | .number n => return .leaf (.literal (.ofBinary64 n))
    | .string s => return .leaf (.literal (.string s))
    | .ident name => return .leaf (Parse.keyword name)
    | .punct .openParen =>
      let inner ← Phrase.conditional |>.read
      expect tokens .closeParen
      return inner
    | _ => throw (unexpected .expression t)
partial_fixpoint

def Parsed.branches (test : Parsed) : Walker Parsed := do
  if ← eat tokens .question then
    let consequent ← Phrase.conditional |>.read
    expect tokens .colon
    let alternate ← Phrase.conditional |>.read
    parent (.conditional test.tree consequent.tree alternate.tree)
      (max test.height (max consequent.height alternate.height))
  else return test
partial_fixpoint

def Parsed.joins (l : Level) (left : Parsed) : Walker Parsed := do
  match ← operator? tokens l with
  | none => return left
  | some join =>
    let _ ← advance tokens
    let right ← operand l |>.read
    let joined ← parent (join left.tree right.tree) (max left.height right.height)
    joined |>.joins l
partial_fixpoint

def Parsed.accesses (object : Parsed) : Walker Parsed := do
  if ← eat tokens .dot then
    let t ← advance tokens
    match t.token with
    | .ident name =>
      let parsed ← parent (.member object.tree (.literal (.string name))) (max object.height 1)
      parsed |>.accesses
    | _ => throw (unexpected .propertyName t)
  else if ← eat tokens .openBracket then
    let property ← Phrase.conditional |>.read
    expect tokens .closeBracket
    let parsed ← parent (.member object.tree property.tree) (max object.height property.height)
    parsed |>.accesses
  else return object
partial_fixpoint

end

def Walker.whole : Walker Expr := do
  if (← peek tokens).token = .eof then throw .empty
  else
    let parsed ← Phrase.conditional.read tokens
    let t ← peek tokens
    if t.token = .eof then return parsed.tree else throw (unexpected .endOfExpression t)

end Phrases

namespace Walker

variable {α β : Type}

section Walks

variable {w : Walker α} {k : α → Walker β} {c after : Cursor}

theorem walk_pure (a : α) (c : Cursor) : walk (pure a) c = some (.ok a, c) := rfl

theorem walk_throw (e : ExpressionError) (c : Cursor) :
    walk (throw e : Walker α) c = some (.error e, c) := rfl

theorem walk_bind_ok {a : α} (here : w.walk c = some (.ok a, after)) :
    walk (w >>= k) c = (k a).walk after := by
  unfold walk at here ⊢
  rw [ExceptT.run_bind, StateT.run_bind, here]
  rfl

theorem walk_bind_error {e : ExpressionError} (here : w.walk c = some (.error e, after)) :
    walk (w >>= k) c = some (.error e, after) := by
  unfold walk at here ⊢
  rw [ExceptT.run_bind, StateT.run_bind, here]
  rfl

variable (tokens : List Located)

theorem walk_peek (c : Cursor) : (peek tokens).walk c = some (.ok (ahead tokens c), c) := rfl

theorem walk_advance (c : Cursor) :
    (advance tokens).walk c =
      some (.ok (ahead tokens c), if (ahead tokens c).token = .eof then c else c.next) := by
  rw [advance, walk_bind_ok (walk_peek tokens c)]
  by_cases ends : (ahead tokens c).token = .eof
  · rw [if_neg (not_not_intro ends), if_pos ends]
    rfl
  · rw [if_pos ends, if_neg ends]
    rfl

theorem walk_eat_present {p : Punct} (front : (ahead tokens c).token = .punct p) :
    (eat tokens p).walk c = some (.ok true, c.next) := by
  have taken := walk_advance tokens c
  rw [if_neg (by rw [front]; nofun)] at taken
  rw [eat, walk_bind_ok (walk_peek tokens c), if_pos front, walk_bind_ok taken, walk_pure]

theorem walk_eat_absent {p : Punct} (front : (ahead tokens c).token ≠ .punct p) :
    (eat tokens p).walk c = some (.ok false, c) := by
  rw [eat, walk_bind_ok (walk_peek tokens c), if_neg front, walk_pure]

theorem walk_operator?_some {l : Level} {p : Punct} {join : Expr → Expr → Expr}
    (front : (ahead tokens c).token = .punct p) (joins : l.join? p = some join) :
    (operator? tokens l).walk c = some (.ok (some join), c) := by
  rw [operator?, walk_bind_ok (walk_peek tokens c), front, ← joins]
  rfl

theorem walk_operator?_none {l : Level}
    (none_joins : ∀ p, (ahead tokens c).token = .punct p → l.join? p = none) :
    (operator? tokens l).walk c = some (.ok none, c) := by
  rw [operator?, walk_bind_ok (walk_peek tokens c)]
  split
  · next p front => rw [none_joins p front, walk_pure]
  · rfl

theorem walk_sign? (c : Cursor) (rest : List Located) :
    (sign? tokens).walk c = some (.ok (Parse.signAt? (ahead tokens c :: rest)), c) := by
  rw [sign?, walk_bind_ok (walk_peek tokens c), Parse.signAt?, Parse.peek_cons]
  cases (ahead tokens c).token with
  | punct p => cases p <;> rfl
  | number n | string s | ident name | eof => rfl

/-- The depth stays incremented when the limit is exceeded. -/
theorem walk_enter (c : Cursor) :
    enter.walk c =
      some (if maxDepth < c.depth + 1 then .error (.tooDeep maxDepth) else .ok (), c.enter) := by
  have up : walk (modify Cursor.enter) c = some (.ok (), c.enter) := rfl
  have seen : walk (get : Walker Cursor) c.enter = some (.ok c.enter, c.enter) := rfl
  rw [enter, walk_bind_ok up, walk_bind_ok seen]
  show walk (if maxDepth < c.depth + 1 then _ else _) c.enter = _
  split <;> rfl

theorem walk_leave (a : α) (c : Cursor) :
    walk (do leave; return a) c = some (.ok a, c.leave) := rfl

theorem walk_parent (tree : Expr) (below : Nat) (c : Cursor) :
    (parent tree below).walk c = some (Parsed.parent maxDepth tree below, c) := rfl

end Walks

end Walker

end Formwork.Expr
