import Formwork.Expr.Delimiter
import Formwork.Expr.Parse
import Formwork.Value.Equality

/-!
# Evaluation

Evaluation of a tree over a scope. Operands are evaluated from left to right; logical operators and
conditionals skip the operands that they do not need.
-/

namespace Formwork

abbrev Scope := String → Option Value

namespace Value

/-- A position written in decimal, perhaps behind a plus. -/
def position? (key : List Char) : Option Nat :=
  let digits := match key with
    | '+' :: rest => rest
    | key => key
  if digits.isEmpty || !digits.all Char.isDigit then none
  else
    let n := Decimal.digitsValue 0 digits
    if n < 18446744073709551616 then some n else none

/-- The part of a value that a key names. Texts and arrays have positions and a length. -/
def access (object property : Value) : Except ExpressionError Value :=
  let key := property.display
  match object with
  | .null => .error (.invalidMember key "null")
  | .object members => .ok ((Entries.get? key members).getD .null)
  | .array items =>
    if key = "length" then .ok (ofInt items.length)
    else .ok (((position? key.toList).bind (items[·]?)).getD .null)
  | .string s =>
    if key = "length" then .ok (ofInt s.toList.length)
    else
      match (position? key.toList).bind (s.toList[·]?) with
      | some c => .ok (.string (String.singleton c))
      | none => .ok .null
  | .bool _ => .ok .null
  | .number _ => .ok .null

end Value

namespace BinaryOp

def invalid (op : BinaryOp) (left right : Value) : ExpressionError :=
  .invalidOperands op.symbol left.typeName right.typeName

def numbers (op : BinaryOp) (left right : Value) : Except ExpressionError (Finite × Finite) :=
  match left.number?, right.number? with
  | some a, some b => .ok (a, b)
  | _, _ => .error (op.invalid left right)

/-- A text on either side makes it a concatenation. -/
def sum (left right : Value) : Except ExpressionError Value :=
  match left, right with
  | .string s, _ => .ok (.string (s ++ right.display))
  | _, .string t => .ok (.string (left.display ++ t))
  | _, _ => do
    let (a, b) ← numbers .add left right
    pure (.ofBinary64 (a.add b))

def arithmetic (op : BinaryOp) (f : Finite → Finite → Binary64) (left right : Value) :
    Except ExpressionError Value := do
  let (a, b) ← op.numbers left right
  pure (.ofBinary64 (f a b))

/-- Division or remainder, with a check for a zero divisor. -/
def quotient (op : BinaryOp) (f : Finite → Finite → Binary64) (left right : Value) :
    Except ExpressionError Value := do
  let (a, b) ← op.numbers left right
  if b.quanta = 0 then .error .divisionByZero else pure (.ofBinary64 (f a b))

/-- The order of two texts by code points, or of two numbers. -/
def order (op : BinaryOp) (left right : Value) : Except ExpressionError Ordering :=
  match left, right with
  | .string s, .string t => .ok (if s < t then .lt else if t < s then .gt else .eq)
  | _, _ => do
    let (a, b) ← op.numbers left right
    pure (if a.lt b then .lt else if b.lt a then .gt else .eq)

def compare (op : BinaryOp) (accept : Ordering → Bool) (left right : Value) :
    Except ExpressionError Value := do
  pure (.bool (accept (← op.order left right)))

def apply (op : BinaryOp) (left right : Value) : Except ExpressionError Value :=
  match op with
  | .add => sum left right
  | .subtract => op.arithmetic Finite.sub left right
  | .multiply => op.arithmetic Finite.mul left right
  | .divide => op.quotient Finite.div left right
  | .remainder => op.quotient Finite.rem left right
  | .less => op.compare Ordering.isLT left right
  | .lessEqual => op.compare Ordering.isLE left right
  | .greater => op.compare Ordering.isGT left right
  | .greaterEqual => op.compare Ordering.isGE left right
  | .looseEqual => .ok (.bool (left.looseEqual right))
  | .looseNotEqual => .ok (.bool (!left.looseEqual right))
  | .strictEqual => .ok (.bool (left.strictEqual right))
  | .strictNotEqual => .ok (.bool (!left.strictEqual right))

end BinaryOp

def UnaryOp.apply (op : UnaryOp) (operand : Value) : Except ExpressionError Value :=
  match op with
  | .not => .ok (.bool (!operand.isTruthy))
  | .negate =>
    match operand.number? with
    | some x => .ok (.ofBinary64 (.finite x.neg))
    | none => .error (.invalidOperand op.symbol operand.typeName)

/-- Whether the left operand already determines the result. -/
def LogicalOp.settles (op : LogicalOp) (left : Value) : Bool :=
  match op with
  | .and => !left.isTruthy
  | .or => left.isTruthy

namespace Expr

def eval (scope : Scope) : Expr → Except ExpressionError Value
  | .literal value => .ok value
  | .variable name =>
    match scope name with
    | some value => .ok value
    | none => .error (.unknownVariable name)
  | .member object property => do
    let object ← eval scope object
    let property ← eval scope property
    object.access property
  | .unary op operand => do
    op.apply (← eval scope operand)
  | .binary op left right => do
    let left ← eval scope left
    let right ← eval scope right
    op.apply left right
  | .logical op left right => do
    let left ← eval scope left
    if op.settles left then pure left else eval scope right
  | .conditional test consequent alternate => do
    if (← eval scope test).isTruthy then eval scope consequent else eval scope alternate

end Expr

/-- A compiled expression. -/
structure Expression where
  /-- The text without delimiters. -/
  source : String
  tree : Expr

namespace Expression

def compile (text : String) : Except ExpressionError Expression := do
  let source := Delimiter.strip text
  let tree ← Expr.parse source
  pure ⟨source, tree⟩

def eval (scope : Scope) (e : Expression) : Except ExpressionError Value := e.tree.eval scope

def evaluate (text : String) (scope : Scope) : Except ExpressionError Value := do
  (← compile text).eval scope

def inspect (e : Expression) : String :=
  Inspect.record "Expression" [("source", Text.quoted e.source), ("tree", e.tree.inspect)]

end Expression

end Formwork
