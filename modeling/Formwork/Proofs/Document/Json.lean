import Formwork.Proofs.Document.Portable
import Formwork.Proofs.Document.Written

/-!
# JSON decoding inverts writing

The JSON text of a portable value parses to a tree that decodes to the value.
-/

namespace Formwork.Json

open Written

/-! ## Strings -/

theorem string_plain {c : Char} (other : c ≠ '"' ∧ c ≠ '\\') (visible : 0x20 ≤ c.toNat)
    (rest : List Char) :
    string (c :: rest) = (string rest).map fun (pieces, rest) => (.char c :: pieces, rest) := by
  rw [string]
  · have accepted : ¬(c.toNat < 0x20 || c == '\\') = true := by
      simpa using ⟨visible, other.2⟩
    rw [if_neg accepted]
  · exact fun quote => other.1 quote
  · rintro a b c d rest ⟨⟩
    exact absurd rfl other.2
  · rintro e rest ⟨⟩
    exact absurd rfl other.2

theorem characters_codeUnit {n : Nat} (ascii : n < 0x80) (rest : List StringPiece) :
    characters (.codeUnit n :: rest) = (characters rest).map (Char.ofNat n :: ·) := by
  have no_lead : isLeadSurrogate n = false := by simp [isLeadSurrogate]; omega
  have no_trail : isTrailSurrogate n = false := by simp [isTrailSurrogate]; omega
  rcases rest with _ | ⟨_ | m, rest⟩ <;> simp [characters, no_lead, no_trail]

theorem exists_pieces (cs : List Char) :
    ∃ pieces, (∀ rest, string (cs.flatMap char ++ '"' :: rest) = some (pieces, rest)) ∧
      characters pieces = some cs := by
  induction cs with
  | nil => exact ⟨[], fun _ => rfl, rfl⟩
  | cons c cs ih =>
      obtain ⟨pieces, reads, same⟩ := ih
      have spelled := spelled_char c
      simp only [List.flatMap_cons, List.append_assoc]
      generalize char c = text at spelled ⊢
      cases spelled with
      | plain other visible =>
          refine ⟨.char c :: pieces, fun rest => ?_, ?_⟩
          · rw [List.singleton_append, string_plain other visible.1, reads, Option.map_some]
          · rw [characters, same, Option.map_some]
      | letter e other json toml =>
          refine ⟨.char c :: pieces, fun rest => ?_, ?_⟩
          · rw [List.cons_append, List.singleton_append, string]
            · rw [json, Option.bind_eq_bind, Option.bind_some, reads]
              rfl
            · exact fun _ _ _ _ _ same _ => other.1 same
          · rw [characters, same, Option.map_some]
      | number a b hex ascii =>
          refine ⟨.codeUnit c.toNat :: pieces, fun rest => ?_, ?_⟩
          · simp only [List.cons_append, List.nil_append, string, hex, reads]
            rfl
          · rw [characters_codeUnit ascii, same, Option.map_some, Char.ofNat_toNat]

/-! ## Integers -/

theorem digits_append {ds rest : List Char} (nonempty : ds ≠ []) (all : Decimal.AllDigits ds)
    (ends : Decimal.NoDigit rest) : digits (ds ++ rest) = some (ds, rest) := by
  obtain ⟨taken, left⟩ := span_append all ends
  have some_digit : ds.isEmpty = false := by simpa using nonempty
  simp [digits, taken, left, some_digit]

theorem fraction_of_ends {rest : List Char} (ends : Ends rest) :
    Decimal.NoDigit rest ∧ fraction rest = some ([], rest) ∧ exponent rest = some (none, rest) := by
  cases rest with
  | nil => exact ⟨nofun, rfl, rfl⟩
  | cons c rest =>
      have one_of : c ∈ [',', ']', '\x7d', '\n'] := ends c rfl
      simp only [List.mem_cons, List.not_mem_nil, or_false] at one_of
      rcases one_of with rfl | rfl | rfl | rfl <;> exact ⟨by rintro _ ⟨⟩; rfl, rfl, rfl⟩

theorem whole_toDigits (n : Nat) {rest : List Char} (ends : Decimal.NoDigit rest) :
    whole (Nat.toDigits 10 n ++ rest) = some (Nat.toDigits 10 n, rest) := by
  by_cases zero : n = 0
  · subst zero
    have no_more : (rest.head?.map Char.isDigit).getD false = false := by
      cases rest with
      | nil => rfl
      | cons c rest => exact ends c rfl
    have text : Nat.toDigits 10 0 = ['0'] := rfl
    rw [text, List.singleton_append, whole, no_more]
    rfl
  · have reads := digits_append (n.toDigits_ne_nil) (Decimal.allDigits_toDigits n) ends
    obtain ⟨c, cs, text, -⟩ := exists_cons_toDigits n
    have no_zero : c ≠ '0' := by
      rintro rfl
      exact zero (eq_zero_of_head_toDigits (by rw [text]; rfl))
    rw [text] at reads ⊢
    rw [List.cons_append] at reads ⊢
    rw [whole]
    · exact reads
    · rintro rest ⟨⟩
      exact no_zero rfl

def literal (n : Int) : NumberLiteral := ⟨n < 0, Nat.toDigits 10 n.natAbs, [], 0, true⟩

theorem number_numeral (n : Int) {rest : List Char} (ends : Ends rest) :
    number (numeral n ++ rest) = some (literal n, rest) := by
  obtain ⟨no_digit, no_fraction, no_exponent⟩ := fraction_of_ends ends
  have reads := whole_toDigits n.natAbs no_digit
  by_cases negative : n < 0
  · simp only [numeral, negative, if_true, List.cons_append, number, reads]
    simp [no_fraction, no_exponent, literal, negative]
  · obtain ⟨c, cs, text, digit⟩ := exists_cons_toDigits n.natAbs
    have unsigned : c ≠ '-' := by
      rintro rfl
      exact Bool.false_ne_true digit
    simp only [numeral, negative, if_false]
    rw [text, List.cons_append] at reads ⊢
    rw [number]
    · simp [reads, no_fraction, no_exponent, literal, negative, text]
    · rintro cs ⟨⟩
      exact unsigned rfl

theorem toValue?_literal (n : Int) (inRange : -9223372036854775808 ≤ n ∧ n < 18446744073709551616) :
    (literal n).toValue? = some (.number (.integer n inRange)) := by
  have of_int : Value.ofInt n = .number (.integer n inRange) := dif_pos inRange
  simp only [literal, NumberLiteral.toValue?, Decimal.digitsValue_toDigits]
  by_cases negative : n < 0
  · have magnitude : -(n.natAbs : Int) = n := by omega
    have signed : 0 < n.natAbs ∧ n.natAbs ≤ 9223372036854775808 := by omega
    rw [if_neg (by simp [negative]), if_pos (by simp [negative, signed.1, signed.2]), magnitude,
      of_int]
  · have magnitude : (n.natAbs : Int) = n := by omega
    have fits : n.natAbs < 18446744073709551616 := by omega
    rw [if_pos (by simp [negative, fits]), magnitude, of_int]

/-! ## Values -/

/-- The text parses to a tree that decodes to `v`, within the given depth. -/
def Stands (text : List Char) (depth : Nat) (v : Value) : Prop :=
  ∃ tree, Reads value text tree ∧ ∀ d, depth ≤ d → toValue? d tree = some v

theorem skipBlank_of_opens {cs : List Char} (opens : Opens cs) : skipBlank cs = cs := by
  obtain ⟨c, rest, rfl, other⟩ := opens
  simp only [between, List.mem_cons, not_or] at other
  simp [skipBlank, isBlank, other]

theorem value_number {c : Char} (sign_or_digit : c = '-' ∨ c.isDigit = true) (fuel : Nat)
    (cs : List Char) : value (fuel + 1) (c :: cs) =
      (number (c :: cs)).map fun (literal, rest) => (.number literal, rest) := by
  have other : c ∉ ['n', 't', 'f', '"', '[', '\x7b'] :=
    not_mem_of_number sign_or_digit (by decide)
  have opens : Opens (c :: cs) := ⟨c, cs, rfl, not_mem_of_number sign_or_digit (by decide)⟩
  rw [value, skipBlank_of_opens opens]
  split
  case h_7 => rfl
  all_goals
    next same =>
      cases same
      exact absurd (by decide) other

theorem stands_bool (depth : Nat) (b : Bool) :
    Stands (Written.value ':' (.bool b)) depth (.bool b) := by
  refine ⟨.bool b, reads_of_succ ?_ fun fuel rest _ _ => ?_, fun _ _ => rfl⟩
  · cases b <;> exact ⟨_, _, rfl, by decide⟩
  · cases b <;> rfl

theorem stands_integer (depth : Nat) (n : Int)
    (inRange : -9223372036854775808 ≤ n ∧ n < 18446744073709551616) :
    Stands (numeral n) depth (.number (.integer n inRange)) := by
  obtain ⟨c, cs, text, sign_or_digit⟩ := exists_cons_numeral n
  refine ⟨.number (literal n), reads_of_succ (opens_numeral n) ?_,
    fun _ _ => toValue?_literal n inRange⟩
  intro fuel rest _ ends
  have reads := number_numeral n ends
  rw [text, List.cons_append] at reads ⊢
  rw [value_number sign_or_digit, reads, Option.map_some]

theorem stands_string (depth : Nat) (s : String) :
    Stands (Written.string s) depth (.string s) := by
  obtain ⟨pieces, reads, same⟩ := exists_pieces s.toList
  refine ⟨.string pieces, reads_of_succ (opens_string s) fun fuel rest _ _ => ?_, fun _ _ => ?_⟩
  · rw [string_append]
    change (string (s.toList.flatMap char ++ '"' :: rest)).map _ = _
    rw [reads, Option.map_some]
  · rw [toValue?, text?, same, Option.map_some, Option.map_some, String.ofList_toList]

theorem items_last {text : List Char} {tree : JsonTree} (first : Reads value text tree) :
    Closes items ']' text [tree] := by
  refine closes_of_succ fun fuel rest enough => ?_
  rw [items, first.reads fuel _ enough (ends_cons (by decide) rest)]
  rfl

theorem items_next {text more : List Char} {tree : JsonTree} {trees : List JsonTree}
    (first : Reads value text tree) (closes : Closes items ']' more trees) :
    Closes items ']' (text ++ ',' :: more) (tree :: trees) := by
  refine closes_of_succ fun fuel rest enough => ?_
  rw [List.length_append, List.length_cons] at enough
  rw [List.append_assoc, List.cons_append, items,
    first.reads fuel _ (by omega) (ends_cons (by decide) _)]
  change (items fuel (more ++ ']' :: rest)).map _ = _
  rw [closes fuel rest (by omega)]
  rfl

theorem exists_items {depth : Nat} {vs : List Value}
    (stands : ∀ v ∈ vs, Stands (Written.value ':' v) depth v) :
    ∃ trees, List.Forall₂ (Reads value) (vs.map (Written.value ':')) trees ∧
      ∀ d, depth ≤ d → toItems? d trees = some vs := by
  induction vs with
  | nil => exact ⟨[], .nil, fun _ _ => rfl⟩
  | cons v vs ih =>
      obtain ⟨⟨tree, reads, same⟩, others⟩ := List.forall_mem_cons.1 stands
      obtain ⟨trees, reads_others, same_others⟩ := ih others
      refine ⟨tree :: trees, .cons reads reads_others, fun d deep => ?_⟩
      rw [toItems?, same d deep, same_others d deep]
      rfl

theorem value_bracket {cs : List Char} (opens : Opens cs) (fuel : Nat) :
    value (fuel + 1) ('[' :: cs) =
      (items fuel cs).map fun (items, rest) => (.array items, rest) := by
  have open_bracket : skipBlank ('[' :: cs) = '[' :: cs := rfl
  rw [value, open_bracket]
  simp only [skipBlank_of_opens opens]
  split
  · exact absurd rfl (opens.ne_cons (by decide) _)
  · rfl

theorem stands_array {depth : Nat} {vs : List Value}
    (stands : ∀ v ∈ vs, Stands (Written.value ':' v) depth v) :
    Stands (Written.value ':' (.array vs)) (depth + 1) (.array vs) := by
  obtain ⟨trees, reads, same⟩ := exists_items stands
  rw [Written.value, values_eq_map]
  refine ⟨.array trees, reads_of_succ ⟨_, _, rfl, by decide⟩ fun fuel rest enough _ => ?_,
    fun d deep => ?_⟩
  · rw [List.cons_append, List.append_assoc, List.singleton_append]
    cases vs with
    | nil =>
        cases reads
        rfl
    | cons v vs =>
        obtain ⟨opens, closes⟩ := closes_joined Reads.opens items_last
          (fun first _ => items_next first) reads (List.cons_ne_nil _ _)
        rw [List.length_cons, List.length_append, List.length_singleton] at enough
        rw [value_bracket (opens.append _), closes fuel rest (by omega), Option.map_some]
  · rw [toValue?, if_neg (by omega), same (d - 1) (by omega), Option.map_some]

def ReadsMember (text : List Char) (m : List StringPiece × JsonTree) : Prop :=
  ∃ key tail, text = Written.string key ++ ':' :: tail ∧
    (∀ rest, string (key.toList.flatMap char ++ '"' :: rest) = some (m.1, rest)) ∧
    Reads value tail m.2

theorem ReadsMember.opens {text : List Char} {m : List StringPiece × JsonTree}
    (member : ReadsMember text m) : Opens text := by
  obtain ⟨key, tail, rfl, -⟩ := member
  exact (opens_string key).append _

theorem members_last {text : List Char} {m : List StringPiece × JsonTree}
    (member : ReadsMember text m) : Closes members '\x7d' text [m] := by
  obtain ⟨key, tail, rfl, reads_key, tree⟩ := member
  refine closes_of_succ fun fuel rest enough => ?_
  rw [List.length_append, List.length_cons] at enough
  rw [List.append_assoc, List.cons_append, members,
    skipBlank_of_opens ((opens_string key).append _), string_append]
  simp only [reads_key]
  change Option.bind (value fuel (tail ++ '\x7d' :: rest)) _ = _
  rw [tree.reads fuel _ (by omega) (ends_cons (by decide) rest)]
  rfl

theorem members_next {text more : List Char} {m : List StringPiece × JsonTree}
    {ms : List (List StringPiece × JsonTree)} (member : ReadsMember text m)
    (closes : Closes members '\x7d' more ms) :
    Closes members '\x7d' (text ++ ',' :: more) (m :: ms) := by
  obtain ⟨key, tail, rfl, reads_key, tree⟩ := member
  refine closes_of_succ fun fuel rest enough => ?_
  rw [List.length_append, List.length_append, List.length_cons, List.length_cons] at enough
  rw [List.append_assoc, List.append_assoc, List.cons_append, List.cons_append, members,
    skipBlank_of_opens ((opens_string key).append _), string_append]
  simp only [reads_key]
  change Option.bind (value fuel (tail ++ ',' :: (more ++ '\x7d' :: rest))) _ = _
  rw [tree.reads fuel _ (by omega) (ends_cons (by decide) _)]
  change (members fuel (more ++ '\x7d' :: rest)).map _ = _
  rw [closes fuel rest (by omega)]
  rfl

theorem exists_members {depth : Nat} {ms : Entries Value}
    (stands : ∀ m ∈ ms, Stands (Written.value ':' m.2) depth m.2) :
    ∃ trees, List.Forall₂ ReadsMember
        (ms.map fun m => Written.string m.1 ++ ':' :: Written.value ':' m.2) trees ∧
      ∀ d, depth ≤ d → toMembers? d trees = some ms := by
  induction ms with
  | nil => exact ⟨[], .nil, fun _ _ => rfl⟩
  | cons m ms ih =>
      obtain ⟨⟨tree, reads, same⟩, others⟩ := List.forall_mem_cons.1 stands
      obtain ⟨trees, reads_others, same_others⟩ := ih others
      obtain ⟨pieces, reads_key, same_key⟩ := exists_pieces m.1.toList
      have key : text? pieces = some m.1 := by
        rw [text?, same_key, Option.map_some, String.ofList_toList]
      refine ⟨(pieces, tree) :: trees, .cons ⟨m.1, _, rfl, reads_key, reads⟩ reads_others,
        fun d deep => ?_⟩
      rw [toMembers?, key, same d deep, same_others d deep]
      rfl

theorem value_brace {cs : List Char} (opens : Opens cs) (fuel : Nat) :
    value (fuel + 1) ('\x7b' :: cs) =
      (members fuel cs).map fun (members, rest) => (.object members, rest) := by
  have open_brace : skipBlank ('\x7b' :: cs) = '\x7b' :: cs := rfl
  rw [value, open_brace]
  simp only [skipBlank_of_opens opens]
  split
  · exact absurd rfl (opens.ne_cons (by decide) _)
  · rfl

theorem stands_object {depth : Nat} {ms : Entries Value} (distinct : (Entries.keys ms).Nodup)
    (stands : ∀ m ∈ ms, Stands (Written.value ':' m.2) depth m.2) :
    Stands (Written.value ':' (.object ms)) (depth + 1) (.object ms) := by
  obtain ⟨trees, reads, same⟩ := exists_members stands
  rw [Written.value, membersOf_eq_map]
  refine ⟨.object trees, reads_of_succ ⟨_, _, rfl, by decide⟩ fun fuel rest enough _ => ?_,
    fun d deep => ?_⟩
  · rw [List.cons_append, List.append_assoc, List.singleton_append]
    cases ms with
    | nil =>
        cases reads
        rfl
    | cons m ms =>
        obtain ⟨opens, closes⟩ := closes_joined ReadsMember.opens members_last
          (fun first _ => members_next first) reads (List.cons_ne_nil _ _)
        rw [List.length_cons, List.length_append, List.length_singleton] at enough
        rw [value_brace (opens.append _), closes fuel rest (by omega), Option.map_some]
  · have kept : (Record.ofList ms).entries = ms := Entries.insertAll_of_nodup distinct
    rw [toValue?, if_neg (by omega), same (d - 1) (by omega), Option.map_some, Value.ofProps, kept]

/-- JSON decoding inverts JSON writing on portable values. -/
theorem stands_value {depth : Nat} {v : Value} (portable : v.Portable depth) :
    Stands (Written.value ':' v) depth v := by
  induction portable with
  | bool depth b => exact stands_bool depth b
  | integer depth n inRange => exact value_numeral ':' n inRange ▸ stands_integer depth n inRange
  | string depth s => exact stands_string depth s
  | array each ih => exact stands_array ih
  | object distinct unmarked each ih => exact stands_object distinct ih

theorem read?_value {depth : Nat} {v : Value} (portable : v.Portable depth)
    (room : depth ≤ maxDepth) :
    read? (String.ofList (Written.value ':' v)) = some v := by
  obtain ⟨tree, reads, same⟩ := stands_value portable
  have whole := reads.reads (2 * (Written.value ':' v).length + 2) [] (by omega) nofun
  rw [List.append_nil] at whole
  rw [read?, parse?, String.toList_ofList, whole]
  exact same maxDepth room

end Formwork.Json
