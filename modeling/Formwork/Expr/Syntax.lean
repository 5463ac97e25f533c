import Formwork.Inspect

/-!
# Expression trees

The abstract syntax, with the free variables and the height of a tree.
-/

namespace Formwork

inductive UnaryOp where
  | not
  | negate
deriving DecidableEq

inductive BinaryOp where
  | add | subtract | multiply | divide | remainder
  | less | lessEqual | greater | greaterEqual
  | looseEqual | looseNotEqual | strictEqual | strictNotEqual
deriving DecidableEq

inductive LogicalOp where
  | and
  | or
deriving DecidableEq

inductive Expr where
  | literal (value : Value)
  | variable (name : String)
  | member (object property : Expr)
  | unary (op : UnaryOp) (operand : Expr)
  | binary (op : BinaryOp) (left right : Expr)
  | logical (op : LogicalOp) (left right : Expr)
  | conditional (test consequent alternate : Expr)
deriving Inhabited

namespace UnaryOp

def symbol : UnaryOp → String
  | .not => "!"
  | .negate => "-"

def inspect : UnaryOp → String
  | .not => "Not"
  | .negate => "Negate"

end UnaryOp

namespace BinaryOp

def symbol : BinaryOp → String
  | .add => "+"
  | .subtract => "-"
  | .multiply => "*"
  | .divide => "/"
  | .remainder => "%"
  | .less => "<"
  | .lessEqual => "<="
  | .greater => ">"
  | .greaterEqual => ">="
  | .looseEqual => "=="
  | .looseNotEqual => "!="
  | .strictEqual => "==="
  | .strictNotEqual => "!=="

def inspect : BinaryOp → String
  | .add => "Add"
  | .subtract => "Subtract"
  | .multiply => "Multiply"
  | .divide => "Divide"
  | .remainder => "Remainder"
  | .less => "Less"
  | .lessEqual => "LessEqual"
  | .greater => "Greater"
  | .greaterEqual => "GreaterEqual"
  | .looseEqual => "LooseEqual"
  | .looseNotEqual => "LooseNotEqual"
  | .strictEqual => "StrictEqual"
  | .strictNotEqual => "StrictNotEqual"

def all : List BinaryOp :=
  [.add, .subtract, .multiply, .divide, .remainder, .less, .lessEqual, .greater, .greaterEqual,
    .looseEqual, .looseNotEqual, .strictEqual, .strictNotEqual]

def ofSymbol? (symbol : String) : Option BinaryOp := all.find? fun op => op.symbol == symbol

end BinaryOp

namespace LogicalOp

def symbol : LogicalOp → String
  | .and => "&&"
  | .or => "||"

def inspect : LogicalOp → String
  | .and => "And"
  | .or => "Or"

end LogicalOp

namespace Expr

/-- Every occurrence of a variable, from left to right. -/
def occurrences : Expr → List String
  | .literal _ => []
  | .variable name => [name]
  | .member object property => occurrences object ++ occurrences property
  | .unary _ operand => occurrences operand
  | .binary _ left right => occurrences left ++ occurrences right
  | .logical _ left right => occurrences left ++ occurrences right
  | .conditional test consequent alternate =>
    occurrences test ++ occurrences consequent ++ occurrences alternate

/-- The variables of a tree, each once, by first occurrence. -/
def freeVariables (e : Expr) : List String := (occurrences e).eraseDups

def height : Expr → Nat
  | .literal _ => 1
  | .variable _ => 1
  | .member object property => 1 + max (height object) (height property)
  | .unary _ operand => 1 + height operand
  | .binary _ left right => 1 + max (height left) (height right)
  | .logical _ left right => 1 + max (height left) (height right)
  | .conditional test consequent alternate =>
    1 + max (height test) (max (height consequent) (height alternate))

def inspect : Expr → String
  | .literal value => Inspect.tuple "Literal" [value.inspect]
  | .variable name => Inspect.tuple "Variable" [Text.quoted name]
  | .member object property =>
    Inspect.record "Member" [("object", inspect object), ("property", inspect property)]
  | .unary op operand =>
    Inspect.record "Unary" [("op", op.inspect), ("operand", inspect operand)]
  | .binary op left right =>
    Inspect.record "Binary" [("op", op.inspect), ("left", inspect left), ("right", inspect right)]
  | .logical op left right =>
    Inspect.record "Logical" [("op", op.inspect), ("left", inspect left), ("right", inspect right)]
  | .conditional test consequent alternate =>
    Inspect.record "Conditional"
      [("test", inspect test), ("consequent", inspect consequent),
        ("alternate", inspect alternate)]

end Expr

end Formwork
