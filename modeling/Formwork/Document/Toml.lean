import Formwork.Document.Toml.Scalar

/-!
# TOML documents

A document is a sequence of lines: headers, assignments and comments. In its value the members of
each table are sorted by key; the original first key only decides whether the table is a date or
time.
-/

namespace Formwork.Toml

/-! ## Grammar -/

/-- Spaces, line ends and comments between the items of an array. -/
def filler (inComment : Bool) : List Char → Option (List Char)
  | [] => some []
  | '\r' :: '\n' :: rest => filler false rest
  | c :: rest =>
    if c == '\n' then filler false rest
    else if inComment then if isPlain c then filler true rest else none
    else if isSpace c then filler false rest
    else if c == '#' then filler true rest
    else some (c :: rest)

/-- What follows a line behind its last token: spaces, perhaps a comment, and the line end. -/
def endOfLine (cs : List Char) : Option (List Char) :=
  let rest := match skipSpace cs with
    | '#' :: rest => rest.dropWhile isPlain
    | rest => rest
  match rest with
  | [] => some []
  | rest => newline? rest

def isBareKeyChar (c : Char) : Bool := c.isAlphanum || c == '_' || c == '-'

def simpleKey (cs : List Char) : Option (String × List Char) :=
  match cs with
  | '"' :: rest => (basicString cs.length rest).map fun (k, rest) => (String.ofList k, rest)
  | '\'' :: rest => (literalString rest).map fun (k, rest) => (String.ofList k, rest)
  | cs =>
    let key := cs.takeWhile isBareKeyChar
    if key.isEmpty then none else some (String.ofList key, cs.dropWhile isBareKeyChar)

def maxDepth : Nat := 80

def keys : (fuel : Nat) → List Char → Option (List String × List Char)
  | 0, _ => none
  | fuel + 1, cs => do
    let (key, rest) ← simpleKey (skipSpace cs)
    match skipSpace rest with
    | '.' :: rest => (keys fuel rest).map fun (more, rest) => (key :: more, rest)
    | rest => pure ([key], rest)

/-- A dotted key: the path of tables, the key in the last of them, and what follows. -/
def keyPath (cs : List Char) : Option (List String × String × List Char) := do
  let (ks, rest) ← keys (cs.length + 1) cs
  if maxDepth ≤ ks.length then none
  else
    match ks.reverse with
    | [] => none
    | key :: path => pure (path.reverse, key, rest)

mutual

/-- The value in front of a text, inside `depth` arrays and inline tables. -/
def value : (fuel depth : Nat) → List Char → Option (Toml × List Char)
  | 0, _, _ => none
  | fuel + 1, depth, cs =>
    match cs with
    | '"' :: '"' :: '"' :: rest =>
      (basicLines cs.length (skipFirstNewline rest)).map fun (s, rest) =>
        (.string (String.ofList s), rest)
    | '"' :: rest =>
      (basicString cs.length rest).map fun (s, rest) => (.string (String.ofList s), rest)
    | '\'' :: '\'' :: '\'' :: rest =>
      (literalLines (skipFirstNewline rest)).map fun (s, rest) => (.string (String.ofList s), rest)
    | '\'' :: rest =>
      (literalString rest).map fun (s, rest) => (.string (String.ofList s), rest)
    | '[' :: rest =>
      if maxDepth ≤ depth + 1 then none
      else do
        match ← filler false rest with
        | ']' :: rest => pure (.array [], rest)
        | rest =>
          (items fuel (depth + 1) rest).map fun (items, rest) => (.array items, rest)
    | '\x7b' :: rest =>
      if maxDepth ≤ depth + 1 then none
      else
        match skipSpace rest with
        | '\x7d' :: rest => some (.table .inline [], rest)
        | rest =>
          (members fuel (depth + 1) [] rest).map fun (entries, rest) =>
            (.table .inline entries, rest)
    | cs => run cs

def items : (fuel depth : Nat) → List Char → Option (List Toml × List Char)
  | 0, _, _ => none
  | fuel + 1, depth, cs => do
    let (item, rest) ← value fuel depth cs
    match ← filler false rest with
    | ']' :: rest => pure ([item], rest)
    | ',' :: rest =>
      match ← filler false rest with
      | ']' :: rest => pure ([item], rest)
      | rest => (items fuel depth rest).map fun (more, rest) => (item :: more, rest)
    | _ => none

def members : (fuel depth : Nat) → Entries Toml → List Char → Option (Entries Toml × List Char)
  | 0, _, _, _ => none
  | fuel + 1, depth, entries, cs => do
    let (path, key, rest) ← keyPath cs
    match rest with
    | '=' :: rest =>
      let (v, rest) ← value fuel depth (skipSpace rest)
      let (_, entries) ← put path key v .header entries
      match skipSpace rest with
      | '\x7d' :: rest => pure (entries, rest)
      | ',' :: rest => members fuel depth entries rest
      | _ => none
    | _ => none

end

/-- The tables read so far, and the path of the current one. -/
structure Lines where
  root : Entries Toml
  current : List String

namespace Lines

def change (l : Lines) (current : List String) (f : Change) : Option Lines :=
  (f .header l.root).map fun (_, root) => ⟨root, current⟩

def put (l : Lines) (path : List String) (key : String) (v : Toml) : Option Lines :=
  l.change l.current (atPath false (Toml.put path key v) l.current)

end Lines

def line (l : Lines) (cs : List Char) : Option (Lines × List Char) :=
  match cs with
  | '[' :: '[' :: rest => do
    let (path, key, rest) ← keyPath rest
    match rest with
    | ']' :: ']' :: rest =>
      let l ← l.change (path ++ [key]) (openNext path key)
      pure (l, ← endOfLine rest)
    | _ => none
  | '[' :: rest => do
    let (path, key, rest) ← keyPath rest
    match rest with
    | ']' :: rest =>
      let l ← l.change (path ++ [key]) (openTable path key)
      pure (l, ← endOfLine rest)
    | _ => none
  | cs => do
    match endOfLine cs with
    | some rest => pure (l, rest)
    | none =>
      let (path, key, rest) ← keyPath cs
      match rest with
      | '=' :: rest =>
        let (v, rest) ← value (2 * rest.length + 2) 0 (skipSpace rest)
        let l ← l.put path key v
        pure (l, ← endOfLine rest)
      | _ => none

def lines : (fuel : Nat) → Lines → List Char → Option Lines
  | 0, _, _ => none
  | fuel + 1, l, cs =>
    match skipSpace cs with
    | [] => some l
    | cs => do
      let (l, rest) ← line l cs
      lines fuel l rest

/-- The top table of a document. A byte order mark in front is passed over. -/
def parse? (text : String) : Option (Entries Toml) :=
  let cs := match text.toList with
    | '\ufeff' :: cs => cs
    | cs => cs
  (lines (cs.length + 1) ⟨[], []⟩ cs).map (·.root)

/-! ## Values -/

def dateTimeKey : String := "$__toml_private_datetime"

def ofDateTime (text : String) : Value := .object [(dateTimeKey, .string text)]

/-- Whether the first key is the reserved one; then the table is read as a date or time. -/
def isMarked : Entries Toml → Bool
  | (key, _) :: _ => key == dateTimeKey
  | [] => false

def markedText? : Entries Toml → Option String
  | (_, .string s) :: _ => DateTime.read? s.toList
  | _ => none

def sortMembers (members : Entries Value) : Entries Value :=
  members.mergeSort fun a b => decide (a.1 ≤ b.1)

mutual

/-- The value of a tree, unless a marked table in it holds no date or time. Floats that are not
finite become null. -/
def toValue? : Toml → Option Value
  | .string s => some (.string s)
  | .integer n => some (.ofInt n)
  | .float (.finite x) => some (.number (.float x))
  | .float _ => some .null
  | .bool b => some (.bool b)
  | .dateTime text => some (ofDateTime text)
  | .array items => (toValues? items).map .array
  | .tables items => (toValues? items).map .array
  | .table _ entries =>
    if isMarked entries then (markedText? entries).map ofDateTime
    else (toMembers? entries).map fun members => .object (sortMembers members)

def toValues? : List Toml → Option (List Value)
  | [] => some []
  | t :: rest => do
    let v ← toValue? t
    let vs ← toValues? rest
    pure (v :: vs)

def toMembers? : Entries Toml → Option (Entries Value)
  | [] => some []
  | (key, t) :: rest => do
    let v ← toValue? t
    let members ← toMembers? rest
    pure ((key, v) :: members)

end

end Formwork.Toml
