import Formwork.Expr.Error
import Formwork.Number.Decimal
import Formwork.Text.Blank
import Formwork.Text.Alphabetic
import Formwork.Text.Numeric

/-!
# Scanning

`scanToken` scans the lexeme at the front of a text; `tokenize` scans the whole text and appends an
end token at its byte length.
-/

namespace Formwork.Scan

def isIdentStart (c : Char) : Bool := c == '_' || c == '$' || Text.isAlphabetic c

def isIdentContinue (c : Char) : Bool := isIdentStart c || Text.isNumeric c

def utf8Length (cs : List Char) : Nat := cs.foldl (fun n c => n + c.utf8Size) 0

/-- Characters of a number after `prev`: digits, points, exponent letters, and a sign only right
after such a letter. -/
def numberSpan (prev : Char) : List Char → List Char × List Char
  | [] => ([], [])
  | c :: rest =>
    if c.isDigit || c == '.' || c == 'e' || c == 'E'
        || ((c == '+' || c == '-') && (prev == 'e' || prev == 'E')) then
      let (more, after) := numberSpan c rest
      (c :: more, after)
    else ([], c :: rest)

def unescape (c : Char) : Char :=
  match c with
  | 'n' => '\n'
  | 't' => '\t'
  | 'r' => '\r'
  | '0' => '\x00'
  | c => c

/-- What a string holds, its characters through the closing quote, and what follows. -/
structure StringSpan where
  value : List Char
  raw : List Char
  after : List Char

def stringSpan (quote : Char) : List Char → Option StringSpan
  | [] => none
  | c :: rest =>
    if c = quote then some ⟨[], [c], rest⟩
    else if c = '\\' then
      match rest with
      | [] => none
      | e :: rest =>
        (stringSpan quote rest).map fun s => ⟨unescape e :: s.value, c :: e :: s.raw, s.after⟩
    else (stringSpan quote rest).map fun s => ⟨c :: s.value, c :: s.raw, s.after⟩

def punctAt? (cs : List Char) : Option Punct :=
  Punct.all.find? fun p => p.symbol.toList.isPrefixOf cs

structure Scanned where
  token : Token
  lexeme : List Char
  after : List Char

def scanNumber (literal after : List Char) (offset : Nat) : Except ExpressionError Scanned :=
  match Binary64.ofDecimalText? literal with
  | some n => .ok ⟨.number n, literal, after⟩
  | none => .error (.invalidNumber (String.ofList literal) offset)

def scanString (quote : Char) (rest : List Char) (offset : Nat) :
    Except ExpressionError Scanned :=
  match stringSpan quote rest with
  | some s => .ok ⟨.string (String.ofList s.value), quote :: s.raw, s.after⟩
  | none => .error (.unterminatedString offset)

def scanIdent (c : Char) (rest : List Char) : Scanned :=
  let name := c :: rest.takeWhile isIdentContinue
  ⟨.ident (String.ofList name), name, rest.dropWhile isIdentContinue⟩

def scanPunct (c : Char) (rest : List Char) (offset : Nat) : Except ExpressionError Scanned :=
  match punctAt? (c :: rest) with
  | some p =>
    let more := p.symbol.length - 1
    .ok ⟨.punct p, c :: rest.take more, rest.drop more⟩
  | none => .error (.unexpectedChar c offset)

/-- The token at the front of `c :: rest`, where `c` is not white space. -/
def scanToken (c : Char) (rest : List Char) (offset : Nat) : Except ExpressionError Scanned :=
  if c.isDigit then scanNumber (c :: (numberSpan c rest).1) (numberSpan c rest).2 offset
  else if c = '\'' ∨ c = '"' then scanString c rest offset
  else if isIdentStart c then .ok (scanIdent c rest)
  else scanPunct c rest offset

theorem numberSpan_append (prev : Char) (cs : List Char) :
    (numberSpan prev cs).1 ++ (numberSpan prev cs).2 = cs := by
  induction cs generalizing prev with
  | nil => rfl
  | cons c rest ih =>
      rw [numberSpan]
      split
      · exact congrArg (c :: ·) (ih c)
      · rfl

theorem stringSpan_append {quote : Char} {cs : List Char} {s : StringSpan}
    (h : stringSpan quote cs = some s) : s.raw ++ s.after = cs := by
  fun_induction stringSpan quote cs generalizing s with
  | case1 => simp at h
  | case2 => cases h; rfl
  | case3 => simp at h
  | case4 e rest _ ih =>
      obtain ⟨t, ht, rfl⟩ := Option.map_eq_some_iff.1 h
      simp [ih ht]
  | case5 c rest _ _ ih =>
      obtain ⟨t, ht, rfl⟩ := Option.map_eq_some_iff.1 h
      simp [ih ht]

theorem lexeme_append_after {c : Char} {rest : List Char} {offset : Nat} {s : Scanned}
    (h : scanToken c rest offset = .ok s) : s.lexeme ++ s.after = c :: rest := by
  unfold scanToken at h
  split at h
  · unfold scanNumber at h
    split at h
    · cases h
      exact congrArg (c :: ·) (numberSpan_append c rest)
    · contradiction
  · split at h
    · unfold scanString at h
      split at h
      next s hs =>
        cases h
        exact congrArg (c :: ·) (stringSpan_append hs)
      · contradiction
    · split at h
      · cases h
        exact congrArg (c :: ·) List.takeWhile_append_dropWhile
      · unfold scanPunct at h
        split at h
        · cases h
          exact congrArg (c :: ·) (List.take_append_drop _ _)
        · contradiction

theorem lexeme_ne_nil {c : Char} {rest : List Char} {offset : Nat} {s : Scanned}
    (h : scanToken c rest offset = .ok s) : s.lexeme ≠ [] := by
  unfold scanToken at h
  split at h
  · unfold scanNumber at h
    split at h
    · cases h
      exact List.cons_ne_nil _ _
    · contradiction
  · split at h
    · unfold scanString at h
      split at h
      · cases h
        exact List.cons_ne_nil _ _
      · contradiction
    · split at h
      · cases h
        exact List.cons_ne_nil _ _
      · unfold scanPunct at h
        split at h
        · cases h
          exact List.cons_ne_nil _ _
        · contradiction

theorem after_length_lt {c : Char} {rest : List Char} {offset : Nat} {s : Scanned}
    (h : scanToken c rest offset = .ok s) : s.after.length < (c :: rest).length := by
  have total := congrArg List.length (lexeme_append_after h)
  have positive := List.length_pos_iff.2 (lexeme_ne_nil h)
  rw [List.length_append] at total
  omega

/-- The tokens of a text whose first character has this offset. -/
def scan (cs : List Char) (offset : Nat) : Except ExpressionError (List Located) :=
  match cs with
  | [] => .ok [⟨.eof, offset⟩]
  | c :: rest =>
    if Text.isBlank c then scan rest (offset + c.utf8Size)
    else
      match _taken : scanToken c rest offset with
      | .error e => .error e
      | .ok s => (scan s.after (offset + utf8Length s.lexeme)).map (⟨s.token, offset⟩ :: ·)
termination_by cs.length
decreasing_by
  · simp
  · exact after_length_lt _taken

def tokenize (source : String) : Except ExpressionError (List Located) := scan source.toList 0

end Formwork.Scan
