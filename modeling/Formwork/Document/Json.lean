import Formwork.Document.JsonNumber

/-!
# JSON documents

`Json.parse?` parses a text to a tree in which numbers and escapes are kept as written; `Json.read?`
decodes the tree. Number ranges, surrogate pairs and the nesting bound are checked on decoding only.
-/

namespace Formwork

/-- A part of a string as written: a character, or an escaped 16-bit unit. -/
inductive StringPiece where
  | char (c : Char)
  | codeUnit (n : Nat)

/-- JSON text as a tree. -/
inductive JsonTree where
  | null
  | bool (b : Bool)
  | number (literal : NumberLiteral)
  | string (pieces : List StringPiece)
  | array (items : List JsonTree)
  | object (members : List (List StringPiece × JsonTree))

namespace Json

def isBlank (c : Char) : Bool := c == ' ' || c == '\n' || c == '\t' || c == '\r'

def skipBlank (cs : List Char) : List Char := cs.dropWhile isBlank

def hexValue? (c : Char) : Option Nat :=
  if c.isDigit then some (c.toNat - '0'.toNat)
  else if 'a' ≤ c && c ≤ 'f' then some (c.toNat - 'a'.toNat + 10)
  else if 'A' ≤ c && c ≤ 'F' then some (c.toNat - 'A'.toNat + 10)
  else none

def hexUnit? (a b c d : Char) : Option Nat := do
  let a ← hexValue? a
  let b ← hexValue? b
  let c ← hexValue? c
  let d ← hexValue? d
  pure (((a * 16 + b) * 16 + c) * 16 + d)

def simpleEscape? (c : Char) : Option Char :=
  match c with
  | '"' => some '"'
  | '\\' => some '\\'
  | '/' => some '/'
  | 'b' => some '\x08'
  | 'f' => some '\x0c'
  | 'n' => some '\n'
  | 'r' => some '\r'
  | 't' => some '\t'
  | _ => none

/-- The pieces of a string behind its opening quote, and what follows the closing one. -/
def string : List Char → Option (List StringPiece × List Char)
  | '"' :: rest => some ([], rest)
  | '\\' :: 'u' :: a :: b :: c :: d :: rest => do
    let n ← hexUnit? a b c d
    let (pieces, rest) ← string rest
    pure (.codeUnit n :: pieces, rest)
  | '\\' :: e :: rest => do
    let c ← simpleEscape? e
    let (pieces, rest) ← string rest
    pure (.char c :: pieces, rest)
  | c :: rest =>
    if c.toNat < 0x20 || c == '\\' then none
    else (string rest).map fun (pieces, rest) => (.char c :: pieces, rest)
  | [] => none

def digits (cs : List Char) : Option (List Char × List Char) :=
  let ds := cs.takeWhile Char.isDigit
  if ds.isEmpty then none else some (ds, cs.dropWhile Char.isDigit)

/-- A zero stands alone before the point. -/
def whole : List Char → Option (List Char × List Char)
  | '0' :: rest => if (rest.head?.map Char.isDigit).getD false then none else some (['0'], rest)
  | cs => digits cs

def fraction : List Char → Option (List Char × List Char)
  | '.' :: rest => digits rest
  | cs => some ([], cs)

def exponent : List Char → Option (Option Int × List Char)
  | c :: rest =>
    if c == 'e' || c == 'E' then do
      let (negative, rest) := match rest with
        | '-' :: rest => (true, rest)
        | '+' :: rest => (false, rest)
        | rest => (false, rest)
      let (ds, rest) ← digits rest
      let n : Int := Decimal.digitsValue 0 ds
      pure (some (if negative then -n else n), rest)
    else some (none, c :: rest)
  | [] => some (none, [])

def number (cs : List Char) : Option (NumberLiteral × List Char) := do
  let (negative, cs) := match cs with
    | '-' :: cs => (true, cs)
    | cs => (false, cs)
  let (whole, cs) ← whole cs
  let (fraction, cs) ← fraction cs
  let (exponent, cs) ← exponent cs
  pure (⟨negative, whole, fraction, exponent.getD 0, fraction.isEmpty && exponent.isNone⟩, cs)

mutual

/-- The tree in front of a text, and what follows it. Each step uses up fuel. -/
def value : (fuel : Nat) → List Char → Option (JsonTree × List Char)
  | 0, _ => none
  | fuel + 1, cs =>
    match skipBlank cs with
    | 'n' :: 'u' :: 'l' :: 'l' :: rest => some (.null, rest)
    | 't' :: 'r' :: 'u' :: 'e' :: rest => some (.bool true, rest)
    | 'f' :: 'a' :: 'l' :: 's' :: 'e' :: rest => some (.bool false, rest)
    | '"' :: rest => (string rest).map fun (pieces, rest) => (.string pieces, rest)
    | '[' :: rest =>
      match skipBlank rest with
      | ']' :: rest => some (.array [], rest)
      | rest => (items fuel rest).map fun (items, rest) => (.array items, rest)
    | '\x7b' :: rest =>
      match skipBlank rest with
      | '\x7d' :: rest => some (.object [], rest)
      | rest => (members fuel rest).map fun (members, rest) => (.object members, rest)
    | cs => (number cs).map fun (literal, rest) => (.number literal, rest)

def items : (fuel : Nat) → List Char → Option (List JsonTree × List Char)
  | 0, _ => none
  | fuel + 1, cs => do
    let (item, rest) ← value fuel cs
    match skipBlank rest with
    | ']' :: rest => pure ([item], rest)
    | ',' :: rest => (items fuel rest).map fun (more, rest) => (item :: more, rest)
    | _ => none

def members : (fuel : Nat) → List Char → Option (List (List StringPiece × JsonTree) × List Char)
  | 0, _ => none
  | fuel + 1, cs => do
    match skipBlank cs with
    | '"' :: rest =>
      let (key, rest) ← string rest
      match skipBlank rest with
      | ':' :: rest =>
        let (tree, rest) ← value fuel rest
        match skipBlank rest with
        | '\x7d' :: rest => pure ([(key, tree)], rest)
        | ',' :: rest => (members fuel rest).map fun (more, rest) => ((key, tree) :: more, rest)
        | _ => none
      | _ => none
    | _ => none

end

def parse? (text : String) : Option JsonTree := do
  let cs := text.toList
  let (tree, rest) ← value (2 * cs.length + 2) cs
  if (skipBlank rest).isEmpty then some tree else none

def isLeadSurrogate (n : Nat) : Bool := 0xD800 ≤ n && n < 0xDC00

def isTrailSurrogate (n : Nat) : Bool := 0xDC00 ≤ n && n < 0xE000

/-- The characters of a string. A lone surrogate has none. -/
def characters : List StringPiece → Option (List Char)
  | [] => some []
  | .char c :: rest => (characters rest).map (c :: ·)
  | .codeUnit m :: .codeUnit n :: rest =>
    if isLeadSurrogate m && isTrailSurrogate n then
      (characters rest).map (Char.ofNat (0x10000 + (m - 0xD800) * 0x400 + (n - 0xDC00)) :: ·)
    else if isLeadSurrogate m || isTrailSurrogate m then none
    else (characters (.codeUnit n :: rest)).map (Char.ofNat m :: ·)
  | .codeUnit m :: rest =>
    if isLeadSurrogate m || isTrailSurrogate m then none
    else (characters rest).map (Char.ofNat m :: ·)

def text? (pieces : List StringPiece) : Option String := (characters pieces).map String.ofList

mutual

/-- The value of a tree with at most `depth` arrays and objects inside one another. A repeated
key keeps its first place and takes its last value. -/
def toValue? (depth : Nat) : JsonTree → Option Value
  | .null => some .null
  | .bool b => some (.bool b)
  | .number literal => literal.toValue?
  | .string pieces => (text? pieces).map .string
  | .array items =>
    if depth = 0 then none else (toItems? (depth - 1) items).map .array
  | .object members =>
    if depth = 0 then none
    else (toMembers? (depth - 1) members).map fun ms => .ofProps (.ofList ms)

def toItems? (depth : Nat) : List JsonTree → Option (List Value)
  | [] => some []
  | tree :: rest => do
    let v ← toValue? depth tree
    let vs ← toItems? depth rest
    pure (v :: vs)

def toMembers? (depth : Nat) : List (List StringPiece × JsonTree) → Option (Entries Value)
  | [] => some []
  | (key, tree) :: rest => do
    let k ← text? key
    let v ← toValue? depth tree
    let ms ← toMembers? depth rest
    pure ((k, v) :: ms)

end

def maxDepth : Nat := 127

def read? (text : String) : Option Value := (parse? text).bind (toValue? maxDepth)

end Json

end Formwork
