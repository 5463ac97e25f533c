import Formwork.Proofs.Expr.Grammar

/-!
# Canonical text

The print of a tree: lexemes separated by spaces, with parentheses where a subtree is a looser
phrase than its position requires. `Formwork.Proofs.Expr.Reprint` shows that these are as few as
possible, and that a key is printed as a name exactly when it is scanned as one identifier.
-/

namespace Formwork

open Expr.Parse (Level)
open Expr.Grammar (Phrase operand)

def Scan.isIdentifier (name : String) : Bool :=
  match name.toList with
  | [] => false
  | c :: rest => isIdentStart c && rest.all isIdentContinue

namespace Expr.Grammar.Phrase

/-- Precedence as a number, the tightest phrase highest. -/
def rank : Phrase → Nat
  | .conditional => 0
  | .level .or => 1
  | .level .and => 2
  | .level .equality => 3
  | .level .relational => 4
  | .level .additive => 5
  | .level .multiplicative => 6
  | .signed => 7
  | .member => 8
  | .primary => 9

end Expr.Grammar.Phrase

def BinaryOp.level : BinaryOp → Level
  | .looseEqual | .looseNotEqual | .strictEqual | .strictNotEqual => .equality
  | .less | .lessEqual | .greater | .greaterEqual => .relational
  | .add | .subtract => .additive
  | .multiply | .divide | .remainder => .multiplicative

def LogicalOp.level : LogicalOp → Level
  | .or => .or
  | .and => .and

namespace Expr

/-- The tightest phrase of a tree without parentheses. -/
def phrase : Expr → Phrase
  | .literal _ => .primary
  | .variable _ => .primary
  | .member _ _ => .member
  | .unary _ _ => .signed
  | .binary op _ _ => .level op.level
  | .logical op _ _ => .level op.level
  | .conditional _ _ _ => .conditional

namespace Print

/-- The characters escaped in a string: quote, backslash, and the braces, since two of them form a
delimiter. -/
def isEscaped (c : Char) : Bool := c == '"' || c == '\\' || c == '\x7b' || c == '\x7d'

def escape (c : Char) : List Char := if isEscaped c then ['\\', c] else [c]

def quoted (s : String) : String := String.ofList ('"' :: (s.toList.flatMap escape ++ ['"']))

/-- A string in quotes, any other value as its JSON text. -/
def literal : Value → String
  | .string s => quoted s
  | value => value.text

/-- The name after the point in a member access. -/
def propertyName? : Expr → Option String
  | .literal (.string name) => if Scan.isIdentifier name then some name else none
  | _ => none

/-- Adds parentheses when the phrase of the tree is looser than `P`. -/
def within (P : Phrase) (e : Expr) (lexemes : List String) : List String :=
  if P.rank ≤ e.phrase.rank then lexemes else "(" :: (lexemes ++ [")"])

def access (property : Expr) (index : List String) : List String :=
  match propertyName? property with
  | some name => [".", name]
  | none => "[" :: (index ++ ["]"])

def join (l : Level) (symbol : String) (left right : Expr) (lexemes lexemes' : List String) :
    List String :=
  within (.level l) left lexemes ++ symbol :: within (operand l) right lexemes'

end Print

open Print

def lexemes : Expr → List String
  | .literal value => [Print.literal value]
  | .variable name => [name]
  | .member object property =>
    within .member object object.lexemes ++ access property property.lexemes
  | .unary op operand => op.symbol :: within .signed operand operand.lexemes
  | .binary op left right => join op.level op.symbol left right left.lexemes right.lexemes
  | .logical op left right => join op.level op.symbol left right left.lexemes right.lexemes
  | .conditional test consequent alternate =>
    within (.level .or) test test.lexemes ++
      "?" :: (consequent.lexemes ++ ":" :: alternate.lexemes)

def print (e : Expr) : String := " ".intercalate e.lexemes

end Expr

/-- The number of groups among the tokens of a text. -/
def Scan.opens (text : String) : Nat :=
  match tokenize text with
  | .ok ts => (ts.map (·.token)).count (.punct .openParen)
  | .error _ => 0

end Formwork
