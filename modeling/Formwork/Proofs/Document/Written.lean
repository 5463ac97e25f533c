import Formwork.Document.Toml
import Formwork.Proofs.Number.Text
import Formwork.Value.Text

/-!
# Writing portable values

One writer for both document formats, which differ in the sign between key and value only.
-/

namespace Formwork.Written

/-- The escapes of JSON, and DEL, which TOML requires to be escaped. -/
def char (c : Char) : List Char :=
  if c = '\x7f' then ['\\', 'u', '0', '0', '7', 'f'] else Text.escapedChar c

def string (s : String) : List Char := '"' :: (s.toList.flatMap char ++ ['"'])

theorem string_append (s : String) (rest : List Char) :
    string s ++ rest = '"' :: (s.toList.flatMap char ++ '"' :: rest) := by
  rw [string, List.cons_append, List.append_assoc, List.singleton_append]

def joined (texts : List (List Char)) : List Char := [','].intercalate texts

mutual

/-- The text of a value, with `sign` between a key and its value. -/
def value (sign : Char) : Value → List Char
  | .null => ['n', 'u', 'l', 'l']
  | .bool b => (Value.boolText b).toList
  | .number n => n.text.toList
  | .string s => string s
  | .array items => '[' :: (joined (values sign items) ++ [']'])
  | .object members => '\x7b' :: (joined (membersOf sign members) ++ ['\x7d'])

def values (sign : Char) : List Value → List (List Char)
  | [] => []
  | v :: rest => value sign v :: values sign rest

def membersOf (sign : Char) : List (String × Value) → List (List Char)
  | [] => []
  | (key, v) :: rest => (string key ++ sign :: value sign v) :: membersOf sign rest

end

theorem values_eq_map (sign : Char) (items : List Value) :
    values sign items = items.map (value sign) := by
  induction items with
  | nil => rfl
  | cons v rest ih => rw [values, ih, List.map_cons]

theorem membersOf_eq_map (sign : Char) (members : Entries Value) :
    membersOf sign members = members.map fun m => string m.1 ++ sign :: value sign m.2 := by
  induction members with
  | nil => rfl
  | cons m rest ih => rw [membersOf, ih, List.map_cons]

/-- What follows starts with a separator: a comma, a closing bracket or brace, or a line end. -/
def Ends (rest : List Char) : Prop := ∀ c ∈ rest.head?, c ∈ [',', ']', '\x7d', '\n']

theorem ends_cons {c : Char} (ends : c ∈ [',', ']', '\x7d', '\n']) (rest : List Char) :
    Ends (c :: rest) := by
  rintro _ ⟨⟩
  exact ends

/-- Characters before a value, or in its place: blanks, closing brackets, the start of a comment. -/
def between : List Char := [' ', '\t', '\n', '\r', ']', '\x7d', '#']

def Opens (cs : List Char) : Prop := ∃ c rest, cs = c :: rest ∧ c ∉ between

theorem Opens.append {cs : List Char} (opens : Opens cs) (rest : List Char) :
    Opens (cs ++ rest) := by
  obtain ⟨c, cs, rfl, other⟩ := opens
  exact ⟨c, cs ++ rest, rfl, other⟩

theorem Opens.ne_cons {cs : List Char} (opens : Opens cs) {c : Char} (blank : c ∈ between)
    (rest : List Char) : cs ≠ c :: rest := by
  rintro rfl
  obtain ⟨_, _, ⟨⟩, other⟩ := opens
  exact other blank

theorem opens_joined {first : List Char} (opens : Opens first) (others : List (List Char)) :
    Opens (joined (first :: others)) := by
  cases others with
  | nil =>
      rw [joined, List.intercalate_singleton]
      exact opens
  | cons second others =>
      rw [joined, List.intercalate_cons_cons, List.append_assoc]
      exact opens.append _

theorem opens_string (s : String) : Opens (string s) := ⟨_, _, rfl, by decide⟩

variable {α : Type}

/-- With enough fuel, `read` takes the text before an `Ends` rest and returns `a`. -/
structure Reads (read : Nat → List Char → Option (α × List Char)) (text : List Char) (a : α) :
    Prop where
  opens : Opens text
  reads : ∀ fuel rest, 2 * text.length ≤ fuel → Ends rest →
    read fuel (text ++ rest) = some (a, rest)

theorem reads_of_succ {read : Nat → List Char → Option (α × List Char)} {text : List Char} {a : α}
    (opens : Opens text) (reads : ∀ fuel rest, 2 * text.length ≤ fuel + 1 → Ends rest →
      read (fuel + 1) (text ++ rest) = some (a, rest)) : Reads read text a where
  opens := opens
  reads fuel rest enough ends := by
    obtain ⟨c, cs, rfl, -⟩ := opens
    cases fuel with
    | zero => exact absurd enough (Nat.not_le_of_gt (Nat.succ_pos _))
    | succ fuel => exact reads fuel rest enough ends

def Closes (read : Nat → List Char → Option (α × List Char)) (close : Char)
    (text : List Char) (a : α) : Prop :=
  ∀ fuel rest, 2 * text.length < fuel → read fuel (text ++ close :: rest) = some (a, rest)

theorem closes_of_succ {read : Nat → List Char → Option (α × List Char)} {close : Char}
    {text : List Char} {a : α} (reads : ∀ fuel rest, 2 * text.length ≤ fuel →
      read (fuel + 1) (text ++ close :: rest) = some (a, rest)) : Closes read close text a := by
  intro fuel rest enough
  cases fuel with
  | zero => exact absurd enough (Nat.not_lt_zero _)
  | succ fuel => exact reads fuel rest (by omega)

theorem closes_joined {read : Nat → List Char → Option (List α × List Char)} {close : Char}
    {Takes : List Char → α → Prop} (opens : ∀ {text a}, Takes text a → Opens text)
    (last : ∀ {text a}, Takes text a → Closes read close text [a])
    (next : ∀ {text a more as}, Takes text a → Opens more → Closes read close more as →
      Closes read close (text ++ ',' :: more) (a :: as))
    {texts : List (List Char)} {as : List α} (each : List.Forall₂ Takes texts as)
    (nonempty : texts ≠ []) : Opens (joined texts) ∧ Closes read close (joined texts) as := by
  induction each with
  | nil => exact absurd rfl nonempty
  | @cons text a texts as first others ih =>
      refine ⟨opens_joined (opens first) texts, ?_⟩
      cases others with
      | nil =>
          rw [joined, List.intercalate_singleton]
          exact last first
      | cons second others =>
          obtain ⟨opens_more, more⟩ := ih (List.cons_ne_nil _ _)
          rw [joined, List.intercalate_cons_cons, List.append_assoc]
          exact next first opens_more more

/-! ## Characters of strings -/

inductive Spelled (c : Char) : List Char → Prop where
  | plain (other : c ≠ '"' ∧ c ≠ '\\') (visible : 0x20 ≤ c.toNat ∧ c.toNat ≠ 0x7f) : Spelled c [c]
  | letter (e : Char) (other : e ≠ 'u' ∧ e ≠ 'U') (json : Json.simpleEscape? e = some c)
      (toml : Toml.simpleEscape? e = some c) : Spelled c ['\\', e]
  | number (a b : Char) (hex : Json.hexUnit? '0' '0' a b = some c.toNat) (ascii : c.toNat < 0x80) :
      Spelled c ['\\', 'u', '0', '0', a, b]

theorem hexUnit?_control {n : Nat} (control : n < 0x20) :
    Json.hexUnit? '0' '0' (Text.lowerHexDigit (n / 16)) (Text.lowerHexDigit n) = some n := by
  revert n
  decide

theorem spelled_char (c : Char) : Spelled c (char c) := by
  unfold char
  split
  · next last =>
    subst last
    exact .number '7' 'f' rfl (by decide)
  next inner =>
  unfold Text.escapedChar
  split
  · exact .letter '"' (by decide) rfl rfl
  · exact .letter '\\' (by decide) rfl rfl
  · exact .letter 'b' (by decide) rfl rfl
  · exact .letter 'f' (by decide) rfl rfl
  · exact .letter 'n' (by decide) rfl rfl
  · exact .letter 'r' (by decide) rfl rfl
  · exact .letter 't' (by decide) rfl rfl
  · next no_quote no_backslash _ _ _ _ _ =>
    split
    · next control => exact .number _ _ (hexUnit?_control control) (by omega)
    · next visible =>
      have no_delete : c.toNat ≠ 0x7f := fun same => inner (Char.toNat_inj.1 same)
      exact .plain ⟨no_quote, no_backslash⟩ ⟨by omega, no_delete⟩

theorem length_le_flatMap_char (cs : List Char) : cs.length ≤ (cs.flatMap char).length := by
  induction cs with
  | nil => exact le_rfl
  | cons c cs ih =>
      have nonempty : 0 < (char c).length := by
        have spelled := spelled_char c
        generalize char c = text at spelled
        cases spelled <;> exact Nat.succ_pos _
      rw [List.flatMap_cons, List.length_append, List.length_cons]
      omega

/-! ## Integers -/

theorem exists_cons_toDigits (n : Nat) :
    ∃ c cs, Nat.toDigits 10 n = c :: cs ∧ c.isDigit = true := by
  have all := Decimal.allDigits_toDigits n
  obtain ⟨c, cs, text⟩ := List.exists_cons_of_ne_nil (Nat.toDigits_ne_nil (b := 10) (n := n))
  exact ⟨c, cs, text, all c (text ▸ List.mem_cons_self)⟩

def numeral (n : Int) : List Char :=
  if n < 0 then '-' :: Nat.toDigits 10 n.natAbs else Nat.toDigits 10 n.natAbs

theorem exists_cons_numeral (n : Int) :
    ∃ c cs, numeral n = c :: cs ∧ (c = '-' ∨ c.isDigit = true) := by
  unfold numeral
  split
  · exact ⟨_, _, rfl, .inl rfl⟩
  · obtain ⟨c, cs, text, digit⟩ := exists_cons_toDigits n.natAbs
    exact ⟨c, cs, text, .inr digit⟩

theorem isDigit_of_mem_tail_numeral {n : Int} {c : Char} (mem : c ∈ (numeral n).tail) :
    c.isDigit = true := by
  have all := Decimal.allDigits_toDigits n.natAbs
  unfold numeral at mem
  split at mem
  · exact all c mem
  · exact all c (List.mem_of_mem_tail mem)

theorem number_of_mem_numeral {n : Int} {c : Char} (mem : c ∈ numeral n) :
    c = '-' ∨ c.isDigit = true := by
  obtain ⟨d, cs, text, number⟩ := exists_cons_numeral n
  rw [text] at mem
  rcases List.mem_cons.1 mem with rfl | behind
  · exact number
  · exact .inr (isDigit_of_mem_tail_numeral (by rw [text]; exact behind))

theorem toList_toString (n : Int) : (toString n).toList = numeral n := by
  cases n with
  | ofNat m => exact String.toList_ofList
  | negSucc m =>
      have text : toString (Int.negSucc m) = "-" ++ String.ofList (Nat.toDigits 10 (m + 1)) := rfl
      rw [text, String.toList_append, String.toList_ofList, String.toList_ofList, numeral,
        if_pos (Int.negSucc_lt_zero m)]
      rfl

theorem eq_zero_of_head_toDigits {n : Nat} (zero : (Nat.toDigits 10 n).head? = some '0') :
    n = 0 := by
  induction n using Nat.strong_induction_on with
  | _ n ih =>
    rcases Nat.lt_or_ge n 10 with small | large
    · rw [Nat.toDigits_of_lt_base small, List.head?_cons, Option.some.injEq] at zero
      have only_zero : ∀ d < 10, Nat.digitChar d = '0' → d = 0 := by decide
      exact only_zero n small zero
    · rw [Nat.toDigits_of_base_le (by decide) large,
        List.head?_append_of_ne_nil _ Nat.toDigits_ne_nil] at zero
      have none_left := ih (n / 10) (by omega) zero
      omega

theorem not_mem_of_number {c : Char} (number : c = '-' ∨ c.isDigit = true) {others : List Char}
    (apart : (others.all fun d => d != '-' && !d.isDigit) = true) : c ∉ others := by
  intro mem
  have other := List.all_eq_true.1 apart c mem
  rcases number with rfl | digit
  · exact Bool.false_ne_true other
  · rw [digit, Bool.not_true, Bool.and_false] at other
    exact Bool.false_ne_true other

theorem opens_numeral (n : Int) : Opens (numeral n) := by
  obtain ⟨c, cs, text, number⟩ := exists_cons_numeral n
  exact ⟨c, cs, text, not_mem_of_number number (by decide)⟩

theorem value_numeral (sign : Char) (n : Int)
    (inRange : -9223372036854775808 ≤ n ∧ n < 18446744073709551616) :
    value sign (.number (.integer n inRange)) = numeral n := toList_toString n

end Formwork.Written
