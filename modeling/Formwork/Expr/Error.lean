import Formwork.Expr.Token
import Formwork.Inspect

/-!
# Expression errors

The errors of scanning, parsing and evaluation, with their messages.
-/

namespace Formwork

/-- The grammar position that a token does not fit. -/
inductive Expectation where
  | punct (p : Punct)
  | propertyName
  | expression
  | endOfExpression
deriving DecidableEq

def Expectation.describe : Expectation → String
  | .punct p => "`" ++ p.symbol ++ "`"
  | .propertyName => "property name"
  | .expression => "expression"
  | .endOfExpression => "end of expression"

inductive ExpressionError where
  | empty
  | unexpectedChar (c : Char) (offset : Nat)
  | unterminatedString (offset : Nat)
  | invalidNumber (literal : String) (offset : Nat)
  | unexpectedToken (expected : Expectation) (found : Token) (offset : Nat)
  | tooDeep (limit : Nat)
  | unknownVariable (name : String)
  | invalidOperands (operator left right : String)
  | invalidOperand (operator operand : String)
  | invalidMember (property target : String)
  | divisionByZero
deriving DecidableEq

namespace ExpressionError

def message : ExpressionError → String
  | .empty => "empty expression"
  | .unexpectedChar c offset =>
    "unexpected character `" ++ toString c ++ "` at offset " ++ toString offset
  | .unterminatedString offset =>
    "unterminated string literal starting at offset " ++ toString offset
  | .invalidNumber literal offset =>
    "invalid number literal `" ++ literal ++ "` at offset " ++ toString offset
  | .unexpectedToken expected found offset =>
    "expected " ++ expected.describe ++ " at offset " ++ toString offset ++ ", found "
      ++ found.describe
  | .tooDeep limit => "expression nesting exceeds " ++ toString limit ++ " levels"
  | .unknownVariable name => "`" ++ name ++ "` is not defined"
  | .invalidOperands operator left right =>
    "operator `" ++ operator ++ "` cannot be applied to " ++ left ++ " and " ++ right
  | .invalidOperand operator operand =>
    "operator `" ++ operator ++ "` cannot be applied to " ++ operand
  | .invalidMember property target =>
    "cannot read property `" ++ property ++ "` of " ++ target
  | .divisionByZero => "division by zero"

def quotedSingle (c : Char) : String :=
  let body :=
    if c == '\'' then ['\\', '\'']
    else if c == '"' then ['"']
    else Text.quotedChar c
  String.ofList ('\'' :: body ++ ['\''])

def inspect : ExpressionError → String
  | .empty => "Empty"
  | .unexpectedChar c offset =>
    Inspect.record "UnexpectedChar" [("ch", quotedSingle c), ("offset", toString offset)]
  | .unterminatedString offset =>
    Inspect.record "UnterminatedString" [("offset", toString offset)]
  | .invalidNumber literal offset =>
    Inspect.record "InvalidNumber" [("literal", Text.quoted literal), ("offset", toString offset)]
  | .unexpectedToken expected found offset =>
    Inspect.record "UnexpectedToken"
      [("expected", Text.quoted expected.describe), ("found", Text.quoted found.describe),
        ("offset", toString offset)]
  | .tooDeep limit => Inspect.tuple "TooDeep" [toString limit]
  | .unknownVariable name => Inspect.tuple "UnknownVariable" [Text.quoted name]
  | .invalidOperands operator left right =>
    Inspect.record "InvalidOperands"
      [("operator", Text.quoted operator), ("left", Text.quoted left),
        ("right", Text.quoted right)]
  | .invalidOperand operator operand =>
    Inspect.record "InvalidOperand"
      [("operator", Text.quoted operator), ("operand", Text.quoted operand)]
  | .invalidMember property target =>
    Inspect.record "InvalidMember"
      [("property", Text.quoted property), ("target", Text.quoted target)]
  | .divisionByZero => "DivisionByZero"

end ExpressionError

end Formwork
