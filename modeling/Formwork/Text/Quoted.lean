import Formwork.Text.GraphemeExtend
import Formwork.Text.Printable

/-!
# Quoted text in diagnostics

A text between double quotes. The quote, the backslash and four controls have short escapes; a
character that would not show by itself is written by its code point.
-/

namespace Formwork.Text

/-- Letters with the property Default_Ignorable_Code_Point. -/
def isBlankLetter (c : Char) : Bool :=
  c == '\u115f' || c == '\u1160' || c == '\u3164' || c == '\uffa0'

/-- The halfwidth sound marks extend a grapheme but are printed. -/
def isHalfwidthMark (c : Char) : Bool := c == '\uff9e' || c == '\uff9f'

def isVisible (c : Char) : Bool :=
  isPrintable c && !isBlankLetter c && (!extendsGrapheme c || isHalfwidthMark c)

/-- Digits of `n` to base sixteen, lower case, no leading zero. -/
def hexDigits (n : Nat) : List Char := Nat.toDigits 16 n

def quotedChar (c : Char) : List Char :=
  match c with
  | '"' => ['\\', '"']
  | '\\' => ['\\', '\\']
  | '\n' => ['\\', 'n']
  | '\r' => ['\\', 'r']
  | '\t' => ['\\', 't']
  | '\x00' => ['\\', '0']
  | c =>
    if isVisible c then [c] else ['\\', 'u', '\x7b'] ++ hexDigits c.toNat ++ ['\x7d']

def quoted (s : String) : String :=
  String.ofList ('"' :: s.toList.flatMap quotedChar ++ ['"'])

end Formwork.Text
