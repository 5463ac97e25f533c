import Formwork.Document.Json
import Formwork.Expr.Eval
import Formwork.Proofs.Expr.Correct

/-!
# Well-formed values

A value is well-formed if no object in it repeats a key. Decoded documents are well-formed, and
evaluation preserves well-formedness.
-/

namespace Formwork

namespace Value

/-- No object in the value has a key twice. -/
inductive WellFormed : Value → Prop where
  | null : WellFormed .null
  | bool (b : Bool) : WellFormed (.bool b)
  | number (n : Number) : WellFormed (.number n)
  | string (s : String) : WellFormed (.string s)
  | array {items : List Value} (each : ∀ v ∈ items, WellFormed v) : WellFormed (.array items)
  | object {members : Entries Value} (distinct : (Entries.keys members).Nodup)
      (each : ∀ m ∈ members, WellFormed m.2) : WellFormed (.object members)

theorem wellFormed_ofBinary64 (x : Binary64) : (ofBinary64 x).WellFormed := by
  cases x with
  | nan => exact .null
  | infinite negative => exact .null
  | finite x =>
      rw [ofBinary64]
      split
      · exact .number _
      · exact .number _

theorem wellFormed_ofInt (n : Int) : (ofInt n).WellFormed := by
  rw [ofInt]
  split
  · exact .number _
  · exact wellFormed_ofBinary64 _

theorem wellFormed_ofList {members : Entries Value} (each : ∀ m ∈ members, m.2.WellFormed) :
    (ofProps (.ofList members)).WellFormed := by
  refine .object (Record.ofList members).distinct fun m mem => ?_
  rcases Entries.mem_or_mem_of_mem_insertAll mem with none_before | written
  · cases none_before
  · exact each m written

end Value

open Value (WellFormed)

/-! ## Documents -/

theorem NumberLiteral.wellFormed_of_toValue? {literal : NumberLiteral} {v : Value}
    (read : literal.toValue? = some v) : v.WellFormed := by
  simp only [toValue?] at read
  split at read
  · exact Option.some.inj read ▸ Value.wellFormed_ofInt _
  · split at read
    · exact Option.some.inj read ▸ Value.wellFormed_ofInt _
    · obtain ⟨x, -, rfl⟩ := Option.map_eq_some_iff.1 read
      exact .number _

namespace Json

mutual

theorem wellFormed_of_toValue? {depth : Nat} {v : Value} :
    ∀ {tree : JsonTree}, toValue? depth tree = some v → v.WellFormed
  | .null, read => by
      cases read
      exact .null
  | .bool b, read => by
      cases read
      exact .bool b
  | .number literal, read => NumberLiteral.wellFormed_of_toValue? read
  | .string pieces, read => by
      obtain ⟨s, -, rfl⟩ := Option.map_eq_some_iff.1 read
      exact .string s
  | .array items, read => by
      rw [toValue?] at read
      split at read
      · cases read
      · obtain ⟨vs, items_read, rfl⟩ := Option.map_eq_some_iff.1 read
        exact .array (wellFormed_of_toItems? items_read)
  | .object members, read => by
      rw [toValue?] at read
      split at read
      · cases read
      · obtain ⟨ms, members_read, rfl⟩ := Option.map_eq_some_iff.1 read
        exact Value.wellFormed_ofList (wellFormed_of_toMembers? members_read)

theorem wellFormed_of_toItems? {depth : Nat} {vs : List Value} :
    ∀ {trees : List JsonTree}, toItems? depth trees = some vs → ∀ v ∈ vs, v.WellFormed
  | [], read => by
      cases read
      exact fun _ mem => nomatch mem
  | tree :: rest, read => by
      simp only [toItems?, Option.bind_eq_bind, Option.bind_eq_some_iff] at read
      obtain ⟨v, value_read, vs, rest_read, ⟨⟩⟩ := read
      exact List.forall_mem_cons.2
        ⟨wellFormed_of_toValue? value_read, wellFormed_of_toItems? rest_read⟩

theorem wellFormed_of_toMembers? {depth : Nat} {ms : Entries Value} :
    ∀ {trees : List (List StringPiece × JsonTree)}, toMembers? depth trees = some ms →
      ∀ m ∈ ms, m.2.WellFormed
  | [], read => by
      cases read
      exact fun _ mem => nomatch mem
  | (key, tree) :: rest, read => by
      simp only [toMembers?, Option.bind_eq_bind, Option.bind_eq_some_iff] at read
      obtain ⟨k, -, v, value_read, ms, rest_read, ⟨⟩⟩ := read
      exact List.forall_mem_cons.2
        ⟨wellFormed_of_toValue? value_read, wellFormed_of_toMembers? rest_read⟩

end

/-- Decoded documents are well-formed, also with repeated keys in the text. -/
theorem wellFormed_of_read? {text : String} {v : Value} (read : read? text = some v) :
    v.WellFormed := by
  obtain ⟨tree, -, tree_read⟩ := Option.bind_eq_some_iff.1 read
  exact wellFormed_of_toValue? tree_read

end Json

/-! ## Expressions -/

theorem Value.wellFormed_of_access {object property v : Value} (well : object.WellFormed)
    (given : object.access property = .ok v) : v.WellFormed := by
  cases well with
  | null => cases given
  | bool b =>
      cases given
      exact .null
  | number n =>
      cases given
      exact .null
  | string s =>
      simp only [access] at given
      split at given
      · exact Except.ok.inj given ▸ wellFormed_ofInt _
      · split at given
        · cases given
          exact .string _
        · cases given
          exact .null
  | @array items each =>
      simp only [access] at given
      split at given
      · exact Except.ok.inj given ▸ wellFormed_ofInt _
      · cases given
        cases found : (position? property.display.toList).bind (items[·]?) with
        | none => exact .null
        | some item =>
            obtain ⟨i, -, item_at⟩ := Option.bind_eq_some_iff.1 found
            exact each item (List.mem_of_getElem? item_at)
  | @object members distinct each =>
      cases given
      cases found : Entries.get? property.display members with
      | none => exact .null
      | some member => exact each _ (Entries.mem_of_get? found)

theorem UnaryOp.wellFormed_of_apply {op : UnaryOp} {operand v : Value}
    (given : op.apply operand = .ok v) : v.WellFormed := by
  cases op with
  | not =>
      cases given
      exact .bool _
  | negate =>
      rw [apply] at given
      split at given
      · exact Except.ok.inj given ▸ Value.wellFormed_ofBinary64 _
      · cases given

open Expr.Parse (ok_of_bind)

namespace BinaryOp

variable {op : BinaryOp} {left right v : Value}

theorem wellFormed_of_arithmetic {f : Finite → Finite → Binary64}
    (given : op.arithmetic f left right = .ok v) : v.WellFormed := by
  obtain ⟨⟨a, b⟩, -, result⟩ := ok_of_bind given
  exact Except.ok.inj result ▸ Value.wellFormed_ofBinary64 _

theorem wellFormed_of_quotient {f : Finite → Finite → Binary64}
    (given : op.quotient f left right = .ok v) : v.WellFormed := by
  obtain ⟨⟨a, b⟩, -, result⟩ := ok_of_bind given
  dsimp only at result
  split at result
  · cases result
  · exact Except.ok.inj result ▸ Value.wellFormed_ofBinary64 _

theorem wellFormed_of_compare {accept : Ordering → Bool}
    (given : op.compare accept left right = .ok v) : v.WellFormed := by
  obtain ⟨o, -, result⟩ := ok_of_bind given
  exact Except.ok.inj result ▸ .bool _

theorem wellFormed_of_sum (given : sum left right = .ok v) : v.WellFormed := by
  unfold sum at given
  split at given
  · exact Except.ok.inj given ▸ .string _
  · exact Except.ok.inj given ▸ .string _
  · exact wellFormed_of_arithmetic given

theorem wellFormed_of_apply (given : op.apply left right = .ok v) : v.WellFormed := by
  cases op with
  | add => exact wellFormed_of_sum given
  | subtract | multiply => exact wellFormed_of_arithmetic given
  | divide | remainder => exact wellFormed_of_quotient given
  | less | lessEqual | greater | greaterEqual => exact wellFormed_of_compare given
  | looseEqual | looseNotEqual | strictEqual | strictNotEqual =>
      exact Except.ok.inj given ▸ .bool _

end BinaryOp

namespace Expr

def literals : Expr → List Value
  | .literal value => [value]
  | .variable _ => []
  | .member object property => literals object ++ literals property
  | .unary _ operand => literals operand
  | .binary _ left right => literals left ++ literals right
  | .logical _ left right => literals left ++ literals right
  | .conditional test consequent alternate =>
    literals test ++ literals consequent ++ literals alternate

theorem Grammar.literals_of_joins {l : Parse.Level} {p : Punct} {f : Expr → Expr → Expr}
    (joins : Joins l p f) (e e' : Expr) : (f e e').literals = e.literals ++ e'.literals := by
  cases joins with
  | or written => rfl
  | and written => rfl
  | binary among written => rfl

theorem Grammar.wellFormed_of_derives {P : Phrase} {d : Nat} {ts : List Token} {e : Expr}
    (h : Derives P d ts e) : ∀ v ∈ e.literals, v.WellFormed := by
  induction h with
  | test _ ih => exact ih
  | choice _ _ _ ih ih' ih'' =>
      exact List.forall_mem_append.2 ⟨List.forall_mem_append.2 ⟨ih, ih'⟩, ih''⟩
  | operand _ ih => exact ih
  | join _ joins _ ih ih' =>
      rw [literals_of_joins joins]
      exact List.forall_mem_append.2 ⟨ih, ih'⟩
  | sign _ _ ih => exact ih
  | unsigned _ ih => exact ih
  | object _ ih => exact ih
  | property _ name ih =>
      exact List.forall_mem_append.2 ⟨ih, List.forall_mem_singleton.2 (.string name)⟩
  | index _ _ ih ih' => exact List.forall_mem_append.2 ⟨ih, ih'⟩
  | number n => exact List.forall_mem_singleton.2 (Value.wellFormed_ofBinary64 n)
  | string s => exact List.forall_mem_singleton.2 (.string s)
  | name names =>
      cases names with
      | true | false => exact List.forall_mem_singleton.2 (.bool _)
      | null | undefined => exact List.forall_mem_singleton.2 .null
      | ordinary _ => exact fun _ mem => nomatch mem
  | group _ ih => exact ih

theorem wellFormed_of_eval {scope : Scope} {e : Expr} {v : Value}
    (data : ∀ name value, scope name = some value → value.WellFormed)
    (literals : ∀ value ∈ e.literals, value.WellFormed) (given : e.eval scope = .ok v) :
    v.WellFormed := by
  induction e generalizing v with
  | literal value => exact Except.ok.inj given ▸ literals value List.mem_cons_self
  | «variable» name =>
      rw [eval] at given
      split at given
      · next value found => exact Except.ok.inj given ▸ data name value found
      · cases given
  | member object property ih ih' =>
      obtain ⟨whole, object_given, rest⟩ := ok_of_bind given
      obtain ⟨key, -, accessed⟩ := ok_of_bind rest
      exact Value.wellFormed_of_access
        (ih (fun value mem => literals value (List.mem_append_left _ mem)) object_given) accessed
  | unary op operand ih =>
      obtain ⟨value, -, applied⟩ := ok_of_bind given
      exact UnaryOp.wellFormed_of_apply applied
  | binary op left right ih ih' =>
      obtain ⟨value, -, rest⟩ := ok_of_bind given
      obtain ⟨value', -, applied⟩ := ok_of_bind rest
      exact BinaryOp.wellFormed_of_apply applied
  | logical op left right ih ih' =>
      obtain ⟨literals_left, literals_right⟩ := List.forall_mem_append.1 literals
      obtain ⟨value, left_given, rest⟩ := ok_of_bind given
      split at rest
      · exact Except.ok.inj rest ▸ ih literals_left left_given
      · exact ih' literals_right rest
  | conditional test consequent alternate ih ih' ih'' =>
      obtain ⟨literals_front, literals_alternate⟩ := List.forall_mem_append.1 literals
      obtain ⟨value, -, rest⟩ := ok_of_bind given
      split at rest
      · exact ih' (List.forall_mem_append.1 literals_front).2 rest
      · exact ih'' literals_alternate rest

end Expr

/-- Compiled expressions preserve well-formedness. -/
theorem Expression.wellFormed_of_eval {text : String} {e : Expression} {scope : Scope} {v : Value}
    (compiled : compile text = .ok e)
    (data : ∀ name value, scope name = some value → value.WellFormed)
    (given : e.eval scope = .ok v) : v.WellFormed := by
  obtain ⟨tree, parsed, this⟩ := ok_of_bind compiled
  cases this
  obtain ⟨tokens, -, tokens_parsed⟩ := ok_of_bind parsed
  obtain ⟨d, derived⟩ := Expr.Parse.derives_of_parseTokens tokens_parsed
  exact Expr.wellFormed_of_eval data (Expr.Grammar.wellFormed_of_derives derived) given

end Formwork
