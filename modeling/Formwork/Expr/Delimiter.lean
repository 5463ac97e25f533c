import Formwork.Text.Blank

/-!
# Expression delimiters

Expressions may be written between double braces. Stripping removes all opening pairs and then all
closing pairs, each from left to right, and trims the result.
-/

namespace Formwork.Delimiter

/-- Drops doubled braces from the left; a brace is used once. -/
def removePairs (brace : Char) : List Char → List Char
  | a :: b :: rest =>
    if a = brace ∧ b = brace then removePairs brace rest else a :: removePairs brace (b :: rest)
  | cs => cs

def stripChars (cs : List Char) : List Char :=
  Text.trim (removePairs '\x7d' (removePairs '\x7b' cs))

def strip (expression : String) : String := String.ofList (stripChars expression.toList)

end Formwork.Delimiter
