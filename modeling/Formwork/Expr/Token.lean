import Formwork.Number.Notation
import Formwork.Text.Quoted

/-!
# Tokens

The punctuators in the order in which they are tried, so that a longer one is found before its
beginnings, and the tokens of an expression with their byte offsets.
-/

namespace Formwork

inductive Punct where
  | strictEqual | strictNotEqual | looseEqual | looseNotEqual | lessEqual | greaterEqual
  | and | or | less | greater | plus | minus | star | slash | percent | bang
  | openParen | closeParen | openBracket | closeBracket | dot | question | colon
deriving DecidableEq

namespace Punct

def symbol : Punct → String
  | .strictEqual => "==="
  | .strictNotEqual => "!=="
  | .looseEqual => "=="
  | .looseNotEqual => "!="
  | .lessEqual => "<="
  | .greaterEqual => ">="
  | .and => "&&"
  | .or => "||"
  | .less => "<"
  | .greater => ">"
  | .plus => "+"
  | .minus => "-"
  | .star => "*"
  | .slash => "/"
  | .percent => "%"
  | .bang => "!"
  | .openParen => "("
  | .closeParen => ")"
  | .openBracket => "["
  | .closeBracket => "]"
  | .dot => "."
  | .question => "?"
  | .colon => ":"

def all : List Punct :=
  [.strictEqual, .strictNotEqual, .looseEqual, .looseNotEqual, .lessEqual, .greaterEqual,
    .and, .or, .less, .greater, .plus, .minus, .star, .slash, .percent, .bang,
    .openParen, .closeParen, .openBracket, .closeBracket, .dot, .question, .colon]

theorem mem_all (p : Punct) : p ∈ all := by cases p <;> decide

end Punct

inductive Token where
  | number (n : Binary64)
  | string (s : String)
  | ident (name : String)
  | punct (p : Punct)
  | eof
deriving DecidableEq

def Token.describe : Token → String
  | .number n => "number `" ++ n.plainText ++ "`"
  | .string s => "string " ++ Text.quoted s
  | .ident name => "identifier `" ++ name ++ "`"
  | .punct p => "`" ++ p.symbol ++ "`"
  | .eof => "end of expression"

/-- A token and the byte offset of its first character. -/
structure Located where
  token : Token
  offset : Nat
deriving DecidableEq

end Formwork
