import Formwork.Document.Json
import Formwork.Document.Toml.DateTime
import Formwork.Document.Toml.Tree

/-!
# TOML scalars

Strings in their four notations, and the values that are one run of characters: truth values,
integers to four bases, floats, dates and times.
-/

namespace Formwork.Toml

def isSpace (c : Char) : Bool := c == ' ' || c == '\t'

def skipSpace (cs : List Char) : List Char := cs.dropWhile isSpace

/-- Characters that may stand as they are in a comment or in a string. -/
def isPlain (c : Char) : Bool := c == '\t' || (0x20 ≤ c.toNat && c.toNat != 0x7F)

def newline? : List Char → Option (List Char)
  | '\n' :: rest => some rest
  | '\r' :: '\n' :: rest => some rest
  | _ => none

/-! ## Strings -/

def hexNumber? (cs : List Char) : Option Nat := do
  let ds ← cs.mapM Json.hexValue?
  pure (ds.foldl (fun n d => n * 16 + d) 0)

def scalar? (n : Nat) : Option Char :=
  if n < 0xD800 || (0xE000 ≤ n && n < 0x110000) then some (Char.ofNat n) else none

def simpleEscape? (c : Char) : Option Char :=
  match c with
  | 'b' => some '\x08'
  | 'f' => some '\x0c'
  | 'n' => some '\n'
  | 'r' => some '\r'
  | 't' => some '\t'
  | '"' => some '"'
  | '\\' => some '\\'
  | _ => none

def escape? : List Char → Option (Char × List Char)
  | 'u' :: a :: b :: c :: d :: rest => do
    let ch ← (← hexNumber? [a, b, c, d]) |> scalar?
    pure (ch, rest)
  | 'U' :: a :: b :: c :: d :: e :: f :: g :: h :: rest => do
    let ch ← (← hexNumber? [a, b, c, d, e, f, g, h]) |> scalar?
    pure (ch, rest)
  | c :: rest => (simpleEscape? c).map (·, rest)
  | [] => none

def basicString : (fuel : Nat) → List Char → Option (List Char × List Char)
  | 0, _ => none
  | fuel + 1, cs =>
    match cs with
    | [] => none
    | '"' :: rest => some ([], rest)
    | '\\' :: rest => do
      let (c, rest) ← escape? rest
      let (more, rest) ← basicString fuel rest
      pure (c :: more, rest)
    | c :: rest =>
      if isPlain c then (basicString fuel rest).map fun (more, rest) => (c :: more, rest) else none

/-- Up to two quotes right before the closing ones belong to the string. -/
def closingQuotes (quote : Char) : List Char → List Char × List Char
  | a :: b :: rest =>
    if a = quote ∧ b = quote then ([a, b], rest)
    else if a = quote then ([a], b :: rest)
    else ([], a :: b :: rest)
  | [a] => if a = quote then ([a], []) else ([], [a])
  | [] => ([], [])

/-- Spaces and line ends behind a backslash at the end of a line. -/
def skipLines : List Char → List Char
  | '\r' :: '\n' :: rest => skipLines rest
  | c :: rest => if isSpace c || c == '\n' then skipLines rest else c :: rest
  | [] => []

def basicLines : (fuel : Nat) → List Char → Option (List Char × List Char)
  | 0, _ => none
  | fuel + 1, cs =>
    match cs with
    | [] => none
    | '"' :: '"' :: '"' :: rest => some (closingQuotes '"' rest)
    | '\r' :: '\n' :: rest => (basicLines fuel rest).map fun (more, rest) => ('\n' :: more, rest)
    | '\\' :: rest =>
      match newline? (skipSpace rest) with
      | some rest => basicLines fuel (skipLines rest)
      | none => do
        let (c, rest) ← escape? rest
        let (more, rest) ← basicLines fuel rest
        pure (c :: more, rest)
    | c :: rest =>
      if isPlain c || c == '\n' then
        (basicLines fuel rest).map fun (more, rest) => (c :: more, rest)
      else none

def literalString : List Char → Option (List Char × List Char)
  | [] => none
  | '\'' :: rest => some ([], rest)
  | c :: rest =>
    if isPlain c then (literalString rest).map fun (more, rest) => (c :: more, rest) else none

def literalLines : List Char → Option (List Char × List Char)
  | [] => none
  | '\'' :: '\'' :: '\'' :: rest => some (closingQuotes '\'' rest)
  | '\r' :: '\n' :: rest => (literalLines rest).map fun (more, rest) => ('\n' :: more, rest)
  | c :: rest =>
    if isPlain c || c == '\n' then
      (literalLines rest).map fun (more, rest) => (c :: more, rest)
    else none

/-- A line end right behind opening quotes does not count. -/
def skipFirstNewline (cs : List Char) : List Char := (newline? cs).getD cs

/-! ## Numbers -/

/-- Digits with single underscores between them. -/
def grouped (isDigit : Char → Bool) : List Char → Option (List Char)
  | [] => none
  | [c] => if isDigit c then some [c] else none
  | c :: '_' :: rest => if isDigit c then (grouped isDigit rest).map (c :: ·) else none
  | c :: rest => if isDigit c then (grouped isDigit rest).map (c :: ·) else none

/-- Decimal digits, of which the first is no zero unless it stands alone. -/
def wholeDigits (cs : List Char) : Option (List Char) := do
  let ds ← grouped Char.isDigit cs
  if ds.head? = some '0' ∧ 1 < ds.length then none else some ds

def splitSign : List Char → Bool × List Char
  | '-' :: rest => (true, rest)
  | '+' :: rest => (false, rest)
  | cs => (false, cs)

def inRange (n : Int) : Option Toml :=
  if -9223372036854775808 ≤ n ∧ n < 9223372036854775808 then some (.integer n) else none

def basedInteger? (base : Nat) (cs : List Char) : Option Toml := do
  let ds ← grouped (fun c => decide ((Json.hexValue? c).getD base < base)) cs
  let n := ds.foldl (fun n c => n * base + (Json.hexValue? c).getD 0) 0
  inRange n

def integer? (cs : List Char) : Option Toml :=
  match cs with
  | '0' :: 'x' :: ds => basedInteger? 16 ds
  | '0' :: 'o' :: ds => basedInteger? 8 ds
  | '0' :: 'b' :: ds => basedInteger? 2 ds
  | cs => do
    let (negative, cs) := splitSign cs
    let ds ← wholeDigits cs
    let n : Int := Decimal.digitsValue 0 ds
    inRange (if negative then -n else n)

def isGroupChar (c : Char) : Bool := c.isDigit || c == '_'

def exponentDigits (cs : List Char) : Option (List Char) := do
  let (negative, cs) := splitSign cs
  let ds ← grouped Char.isDigit cs
  pure (if negative then '-' :: ds else ds)

def floatTail (cs : List Char) : Option (List Char) :=
  match cs with
  | '.' :: rest => do
    let ds ← grouped Char.isDigit (rest.takeWhile isGroupChar)
    match rest.dropWhile isGroupChar with
    | [] => pure ('.' :: ds)
    | c :: rest =>
      if c == 'e' || c == 'E' then
        (exponentDigits rest).map fun e => '.' :: ds ++ 'e' :: e
      else none
  | c :: rest => if c == 'e' || c == 'E' then (exponentDigits rest).map ('e' :: ·) else none
  | [] => none

/-- A float; one too large is refused, unless it is negative. -/
def float? (cs : List Char) : Option Toml := do
  let (negative, body) := splitSign cs
  if body = ['i', 'n', 'f'] then some (.float (.infinite negative))
  else if body = ['n', 'a', 'n'] then some (.float .nan)
  else
    let whole ← wholeDigits (body.takeWhile isGroupChar)
    let tail ← floatTail (body.dropWhile isGroupChar)
    let d ← Decimal.read? (whole ++ tail)
    match Decimal.toBinary64 negative d with
    | .infinite false => none
    | x => some (.float x)

/-! ## Runs -/

def isRunChar (c : Char) : Bool :=
  c.isAlphanum || c == '_' || c == '+' || c == '-' || c == '.' || c == ':'

def ofRun (cs : List Char) : Option Toml :=
  if cs = ['t', 'r', 'u', 'e'] then some (.bool true)
  else if cs = ['f', 'a', 'l', 's', 'e'] then some (.bool false)
  else
    match DateTime.read? cs with
    | some text => some (.dateTime text)
    | none => (float? cs).or (integer? cs)

/-- The run in front of a text. A date may go on with a time behind a single space. -/
def run (cs : List Char) : Option (Toml × List Char) :=
  let first := cs.takeWhile isRunChar
  let rest := cs.dropWhile isRunChar
  match DateTime.date? first, rest with
  | some (_, []), ' ' :: c :: more =>
    if isRunChar c then
      let second := (c :: more).takeWhile isRunChar
      (ofRun (first ++ 'T' :: second)).map (·, (c :: more).dropWhile isRunChar)
    else (ofRun first).map (·, rest)
  | _, _ => (ofRun first).map (·, rest)

end Formwork.Toml
