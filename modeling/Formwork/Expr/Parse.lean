import Formwork.Expr.Scan
import Formwork.Expr.Syntax

/-!
# Parsing

Recursive descent: conditionals over six levels of left-associative operators, signs, member access,
and primaries. The nesting of conditionals and signs and the height of trees are bounded by
`maxDepth`, hence so is the length of a chain of operators.
-/

namespace Formwork

namespace Expr

/-- How deep expressions may be nested, and how high trees may be. -/
def maxDepth : Nat := 64

structure Parsed where
  tree : Expr
  height : Nat

abbrev Parser := List Located → Except ExpressionError (Parsed × List Located)

namespace Parsed

def leaf (tree : Expr) : Parsed := ⟨tree, 1⟩

/-- Checks the height of a node whose highest child has height `below`. -/
def parent (limit : Nat) (tree : Expr) (below : Nat) : Except ExpressionError Parsed :=
  if limit < 1 + below then .error (.tooDeep limit) else .ok ⟨tree, 1 + below⟩

end Parsed

namespace Parse

/-- The first token; the end token when there is none. -/
def peek : List Located → Located
  | [] => ⟨.eof, 0⟩
  | t :: _ => t

def advance : List Located → List Located
  | [] => []
  | t :: rest => if t.token = .eof then t :: rest else rest

def unexpected (expected : Expectation) (ts : List Located) : ExpressionError :=
  .unexpectedToken expected (peek ts).token (peek ts).offset

/-- The remaining tokens if the first one is the punctuator `p`. -/
def eat? (p : Punct) : List Located → Option (List Located)
  | [] => none
  | t :: rest => if t.token = .punct p then some rest else none

def expect (p : Punct) (ts : List Located) : Except ExpressionError (List Located) :=
  match eat? p ts with
  | some rest => .ok rest
  | none => .error (unexpected (.punct p) ts)

def tooDeep (limit : Nat) : Parser := fun _ => .error (.tooDeep limit)

/-- The levels of left-associative operators, loosest first. -/
inductive Level where
  | or | and | equality | relational | additive | multiplicative
deriving DecidableEq

namespace Level

def all : List Level := [.or, .and, .equality, .relational, .additive, .multiplicative]

def join? : Level → Punct → Option (Expr → Expr → Expr)
  | .or, .or => some (.logical .or)
  | .and, .and => some (.logical .and)
  | .equality, .looseEqual => some (.binary .looseEqual)
  | .equality, .looseNotEqual => some (.binary .looseNotEqual)
  | .equality, .strictEqual => some (.binary .strictEqual)
  | .equality, .strictNotEqual => some (.binary .strictNotEqual)
  | .relational, .less => some (.binary .less)
  | .relational, .lessEqual => some (.binary .lessEqual)
  | .relational, .greater => some (.binary .greater)
  | .relational, .greaterEqual => some (.binary .greaterEqual)
  | .additive, .plus => some (.binary .add)
  | .additive, .minus => some (.binary .subtract)
  | .multiplicative, .star => some (.binary .multiply)
  | .multiplicative, .slash => some (.binary .divide)
  | .multiplicative, .percent => some (.binary .remainder)
  | _, _ => none

def operator? (level : Level) : List Located → Option ((Expr → Expr → Expr) × List Located)
  | ⟨.punct p, _⟩ :: rest => (level.join? p).map (·, rest)
  | _ => none

end Level

/-- The loop of a left-associative level, with at most `steps` further operands. -/
def chain (limit : Nat) (operand : Parser) (level : Level) (steps : Nat) (left : Parsed) :
    Parser := fun ts =>
  match level.operator? ts with
  | none => .ok (left, ts)
  | some (join, rest) =>
    match steps with
    | 0 => tooDeep limit rest
    | steps + 1 =>
      match operand rest with
      | .error e => .error e
      | .ok (right, rest) =>
        match Parsed.parent limit (join left.tree right.tree) (max left.height right.height) with
        | .error e => .error e
        | .ok joined => chain limit operand level steps joined rest

/-- Operators of the given levels over operands. -/
def operators (limit : Nat) (operand : Parser) : List Level → Parser
  | [], ts => operand ts
  | level :: tighter, ts =>
    match operators limit operand tighter ts with
    | .error e => .error e
    | .ok (left, rest) => chain limit (operators limit operand tighter) level limit left rest

/-- A test alone, or a test with two branches. -/
def conditionalOf (limit : Nat) (test branch : Parser) : Parser := fun ts => do
  let (test, ts) ← test ts
  match eat? .question ts with
  | none => pure (test, ts)
  | some ts =>
    let (consequent, ts) ← branch ts
    let ts ← expect .colon ts
    let (alternate, ts) ← branch ts
    let parsed ← Parsed.parent limit (.conditional test.tree consequent.tree alternate.tree)
      (max test.height (max consequent.height alternate.height))
    pure (parsed, ts)

def keyword (name : String) : Expr :=
  if name = "true" then .literal (.bool true)
  else if name = "false" then .literal (.bool false)
  else if name = "null" ∨ name = "undefined" then .literal .null
  else .variable name

/-- A literal, a name, or a group of which `nested` reads the inside. -/
def primary (nested : Parser) : Parser := fun ts =>
  match (peek ts).token with
  | .number n => .ok (.leaf (.literal (.ofBinary64 n)), advance ts)
  | .string s => .ok (.leaf (.literal (.string s)), advance ts)
  | .ident name => .ok (.leaf (keyword name), advance ts)
  | .punct .openParen => do
    let (inner, rest) ← nested (advance ts)
    let rest ← expect .closeParen rest
    pure (inner, rest)
  | _ => .error (unexpected .expression ts)

def access (limit : Nat) (nested : Parser) (object : Parsed) (ts : List Located) :
    Except ExpressionError (Option (Parsed × List Located)) :=
  match eat? .dot ts, eat? .openBracket ts with
  | some rest, _ =>
    match (peek rest).token with
    | .ident name => do
      let parsed ← Parsed.parent limit (.member object.tree (.literal (.string name)))
        (max object.height 1)
      pure (some (parsed, advance rest))
    | _ => .error (unexpected .propertyName rest)
  | none, some rest => do
    let (property, rest) ← nested rest
    let rest ← expect .closeBracket rest
    let parsed ← Parsed.parent limit (.member object.tree property.tree)
      (max object.height property.height)
    pure (some (parsed, rest))
  | none, none => .ok none

/-- Member accesses behind `object`, `steps` at most. -/
def accesses (limit : Nat) (nested : Parser) (steps : Nat) (object : Parsed) : Parser := fun ts =>
  match access limit nested object ts with
  | .error e => .error e
  | .ok none => .ok (object, ts)
  | .ok (some (parsed, rest)) =>
    match steps with
    | 0 => tooDeep limit rest
    | steps + 1 => accesses limit nested steps parsed rest

def memberOf (limit : Nat) (nested : Parser) : Parser := fun ts => do
  let (object, ts) ← primary nested ts
  accesses limit nested limit object ts

def signAt? (ts : List Located) : Option UnaryOp :=
  match (peek ts).token with
  | .punct .bang => some .not
  | .punct .minus => some .negate
  | _ => none

/-- Signs before a member access; `deeper` parses the operand of a sign. -/
def signed (limit : Nat) (deeper nested : Parser) : Parser := fun ts =>
  match signAt? ts with
  | some op => do
    let (operand, ts) ← deeper (advance ts)
    let parsed ← Parsed.parent limit (.unary op operand.tree) operand.height
    pure (parsed, ts)
  | none => memberOf limit nested ts

mutual

/-- A conditional with `depth` levels of nesting left. -/
def conditional (limit : Nat) : Nat → Parser
  | 0, ts => tooDeep limit ts
  | depth + 1, ts =>
    conditionalOf limit (operators limit (unary limit depth) Level.all) (conditional limit depth) ts

/-- A signed operand with `depth` levels of nesting left. -/
def unary (limit : Nat) : Nat → Parser
  | 0, ts => signed limit (tooDeep limit) (tooDeep limit) ts
  | depth + 1, ts =>
    signed limit (unary limit depth)
      (conditionalOf limit (operators limit (unary limit depth) Level.all)
        (conditional limit depth)) ts

end

def parseTokens (ts : List Located) : Except ExpressionError Expr :=
  if (peek ts).token = .eof then .error .empty
  else do
    let (parsed, rest) ← conditional maxDepth maxDepth ts
    if (peek rest).token = .eof then .ok parsed.tree
    else .error (unexpected .endOfExpression rest)

end Parse

def parse (source : String) : Except ExpressionError Expr := do
  Parse.parseTokens (← Scan.tokenize source)

end Expr

end Formwork
