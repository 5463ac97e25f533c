import Formwork.Value.Basic

/-!
# Text of values

Compact JSON text, and the display text used in concatenation.
-/

namespace Formwork

namespace Text

def lowerHexDigit (n : Nat) : Char := Nat.digitChar (n % 16)

def escapedChar (c : Char) : List Char :=
  match c with
  | '"' => ['\\', '"']
  | '\\' => ['\\', '\\']
  | '\x08' => ['\\', 'b']
  | '\x0c' => ['\\', 'f']
  | '\n' => ['\\', 'n']
  | '\r' => ['\\', 'r']
  | '\t' => ['\\', 't']
  | c =>
    if c.toNat < 0x20 then
      ['\\', 'u', '0', '0', lowerHexDigit (c.toNat / 16), lowerHexDigit c.toNat]
    else [c]

/-- A JSON string literal. Only quotes, backslashes and controls are escaped. -/
def jsonString (s : String) : String :=
  String.ofList ('"' :: s.toList.flatMap escapedChar ++ ['"'])

end Text

namespace Value

def boolText (b : Bool) : String := if b then "true" else "false"

mutual

def text : Value → String
  | .null => "null"
  | .bool b => boolText b
  | .number n => n.text
  | .string s => Text.jsonString s
  | .array items => "[" ++ String.intercalate "," (itemTexts items) ++ "]"
  | .object members => "\x7b" ++ String.intercalate "," (memberTexts members) ++ "\x7d"

def itemTexts : List Value → List String
  | [] => []
  | v :: rest => v.text :: itemTexts rest

def memberTexts : List (String × Value) → List String
  | [] => []
  | (k, v) :: rest => (Text.jsonString k ++ ":" ++ v.text) :: memberTexts rest

end

mutual

/-- The text that a value adds to a concatenation. In arrays null leaves a gap. -/
def display : Value → String
  | .null => "null"
  | .bool b => boolText b
  | .number n => n.text
  | .string s => s
  | .array items => String.intercalate "," (itemDisplays items)
  | .object _ => "[object Object]"

def itemDisplays : List Value → List String
  | [] => []
  | .null :: rest => "" :: itemDisplays rest
  | v :: rest => v.display :: itemDisplays rest

end

end Value

end Formwork
