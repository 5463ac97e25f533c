import Formwork.Proofs.Document.Portable
import Formwork.Proofs.Document.Written

/-!
# TOML decoding inverts writing

The TOML text of a portable value parses to a tree that decodes to the sorted value.
-/

namespace Formwork.Toml

open Written

/-! ## Strings -/

theorem hexNumber?_eq_hexUnit? (a b c d : Char) :
    hexNumber? [a, b, c, d] = Json.hexUnit? a b c d := by
  simp only [hexNumber?, Json.hexUnit?, List.mapM_cons, List.mapM_nil]
  cases Json.hexValue? a <;> cases Json.hexValue? b <;> cases Json.hexValue? c <;>
    cases Json.hexValue? d <;> simp

theorem escape?_letter {e c : Char} (other : e ≠ 'u' ∧ e ≠ 'U') (letter : simpleEscape? e = some c)
    (rest : List Char) : escape? (e :: rest) = some (c, rest) := by
  rw [escape?, letter, Option.map_some]
  · exact fun _ _ _ _ _ same _ => other.1 same
  · exact fun _ _ _ _ _ _ _ _ _ same _ => other.2 same

theorem escape?_number {a b c : Char} (hex : Json.hexUnit? '0' '0' a b = some c.toNat)
    (ascii : c.toNat < 0x80) (rest : List Char) :
    escape? ('u' :: '0' :: '0' :: a :: b :: rest) = some (c, rest) := by
  have scalar : scalar? c.toNat = some c := by
    rw [scalar?, if_pos (by simp; omega), Char.ofNat_toNat]
  simp [escape?, hexNumber?_eq_hexUnit?, hex, scalar]

theorem basicString_append {cs : List Char} {fuel : Nat} (enough : cs.length < fuel)
    (rest : List Char) : basicString fuel (cs.flatMap char ++ '"' :: rest) = some (cs, rest) := by
  induction cs generalizing fuel with
  | nil =>
      obtain ⟨fuel, rfl⟩ : ∃ f, fuel = f + 1 := ⟨fuel - 1, by omega⟩
      rfl
  | cons c cs ih =>
      obtain ⟨fuel, rfl⟩ : ∃ f, fuel = f + 1 := ⟨fuel - 1, by omega⟩
      have more := ih (Nat.lt_of_succ_lt_succ enough)
      have spelled := spelled_char c
      simp only [List.flatMap_cons, List.append_assoc]
      generalize char c = text at spelled ⊢
      cases spelled with
      | plain other visible =>
          have plain : isPlain c = true := by simp [isPlain, visible]
          rw [List.singleton_append, basicString]
          · rw [if_pos plain, more, Option.map_some]
          · exact fun quote => other.1 quote
          · exact fun backslash => other.2 backslash
      | letter e other json toml =>
          rw [List.cons_append, List.singleton_append, basicString, escape?_letter other toml]
          simp [more]
      | number a b hex ascii =>
          simp only [List.cons_append, List.nil_append]
          rw [basicString, escape?_number hex ascii]
          simp [more]

/-! ## Integers and truth values -/

theorem grouped_digits {ds : List Char} (nonempty : ds ≠ []) (all : Decimal.AllDigits ds) :
    grouped Char.isDigit ds = some ds := by
  induction ds with
  | nil => exact absurd rfl nonempty
  | cons c ds ih =>
      obtain ⟨digit, more⟩ := List.forall_mem_cons.1 all
      cases ds with
      | nil => rw [grouped, if_pos digit]
      | cons d ds =>
          have no_mark : d ≠ '_' := by
            rintro rfl
            exact Bool.false_ne_true (more '_' List.mem_cons_self)
          rw [grouped]
          · rw [if_pos digit, ih (List.cons_ne_nil d ds) more, Option.map_some]
          · exact nofun
          · rintro rest ⟨⟩
            exact no_mark rfl

theorem wholeDigits_toDigits (n : Nat) :
    wholeDigits (Nat.toDigits 10 n) = some (Nat.toDigits 10 n) := by
  have alone : ¬((Nat.toDigits 10 n).head? = some '0' ∧ 1 < (Nat.toDigits 10 n).length) := by
    rintro ⟨zero, long⟩
    rw [eq_zero_of_head_toDigits zero] at long
    exact absurd long (by decide)
  rw [wholeDigits, grouped_digits Nat.toDigits_ne_nil (Decimal.allDigits_toDigits n)]
  exact if_neg alone

theorem splitSign_numeral (n : Int) :
    splitSign (numeral n) = (decide (n < 0), Nat.toDigits 10 n.natAbs) := by
  unfold numeral
  split
  · next negative => rw [splitSign, decide_eq_true negative]
  · next unsigned =>
    obtain ⟨c, cs, text, digit⟩ := exists_cons_toDigits n.natAbs
    have no_sign : c ∉ ['-', '+'] := by
      intro sign
      simp only [List.mem_cons, List.not_mem_nil, or_false] at sign
      rcases sign with rfl | rfl <;> exact Bool.false_ne_true digit
    rw [text, splitSign, decide_eq_false unsigned]
    · rintro _ ⟨⟩
      exact no_sign (by decide)
    · rintro _ ⟨⟩
      exact no_sign (by decide)

theorem integer?_numeral {n : Int} (signed : -9223372036854775808 ≤ n ∧ n < 9223372036854775808) :
    integer? (numeral n) = some (.integer n) := by
  have decimal : ∀ c ∈ (numeral n).tail, c ∉ ['x', 'o', 'b'] := fun c mem =>
    not_mem_of_number (.inr (isDigit_of_mem_tail_numeral mem)) (by decide)
  have magnitude : (if decide (n < 0) = true then -(n.natAbs : Int) else n.natAbs) = n := by
    simp only [decide_eq_true_eq]
    omega
  rw [integer?]
  · simp only [splitSign_numeral, wholeDigits_toDigits]
    change inRange (if decide (n < 0) = true then
      -(Decimal.digitsValue 0 (Nat.toDigits 10 n.natAbs) : Int) else
      (Decimal.digitsValue 0 (Nat.toDigits 10 n.natAbs) : Int)) = _
    rw [Decimal.digitsValue_toDigits, magnitude, inRange, if_pos signed]
  · exact fun ds same => decimal 'x' (by simp [same]) (by decide)
  · exact fun ds same => decimal 'o' (by simp [same]) (by decide)
  · exact fun ds same => decimal 'b' (by simp [same]) (by decide)

theorem float?_numeral (n : Int) : float? (numeral n) = none := by
  have all : ∀ c ∈ Nat.toDigits 10 n.natAbs, isGroupChar c = true := by
    intro c mem
    rw [isGroupChar, Decimal.allDigits_toDigits n.natAbs c mem, Bool.true_or]
  obtain ⟨c, cs, text, digit⟩ := exists_cons_toDigits n.natAbs
  have no_name : Nat.toDigits 10 n.natAbs ≠ ['i', 'n', 'f'] ∧
      Nat.toDigits 10 n.natAbs ≠ ['n', 'a', 'n'] := by
    rw [text]
    constructor <;> rintro ⟨⟩ <;> exact Bool.false_ne_true digit
  have ends : ∀ c ∈ ([] : List Char).head?, isGroupChar c = false := nofun
  obtain ⟨taken, left⟩ := span_append all ends
  rw [List.append_nil] at taken left
  simp [float?, splitSign_numeral, no_name, taken, left, wholeDigits_toDigits, floatTail]

theorem date?_numeral (n : Int) : DateTime.date? (numeral n) = none := by
  -- a date has a minus behind its year, an integer only in front
  rw [DateTime.date?]
  rintro y₁ y₂ y₃ y₄ m₁ m₂ d₁ d₂ rest same
  have digit : '-'.isDigit = true := isDigit_of_mem_tail_numeral (n := n) (by simp [same])
  exact Bool.false_ne_true digit

theorem time?_numeral (n : Int) : DateTime.time? (numeral n) = none := by
  rw [DateTime.time?]
  rintro h₁ h₂ m₁ m₂ s₁ s₂ rest same
  have digit : ':'.isDigit = true := isDigit_of_mem_tail_numeral (n := n) (by simp [same])
  exact Bool.false_ne_true digit

theorem ofRun_numeral {n : Int} (signed : -9223372036854775808 ≤ n ∧ n < 9223372036854775808) :
    ofRun (numeral n) = some (.integer n) := by
  have no_word : 't' ∉ numeral n ∧ 'f' ∉ numeral n :=
    ⟨fun mem => by simpa using number_of_mem_numeral mem,
      fun mem => by simpa using number_of_mem_numeral mem⟩
  have no_date : DateTime.read? (numeral n) = none := by
    rw [DateTime.read?, date?_numeral, time?_numeral]
  rw [ofRun, if_neg (fun same => no_word.1 (by simp [same])),
    if_neg (fun same => no_word.2 (by simp [same])), no_date, float?_numeral, Option.none_or,
    integer?_numeral signed]

theorem run_append {cs rest : List Char} (all : ∀ c ∈ cs, isRunChar c = true) (ends : Ends rest)
    (no_date : DateTime.date? cs = none) : run (cs ++ rest) = (ofRun cs).map (·, rest) := by
  have ends_run : ∀ c ∈ rest.head?, isRunChar c = false := by
    intro c first
    have other : ([',', ']', '\x7d', '\n'].all fun d => !isRunChar d) = true := rfl
    simpa using List.all_eq_true.1 other c (ends c first)
  obtain ⟨taken, left⟩ := span_append all ends_run
  simp only [run, taken, left, no_date]

/-! ## Values -/

/-- The text parses to a tree that decodes to `v`, at any depth that leaves room for it. -/
def Stands (text : List Char) (depth : Nat) (v : Value) : Prop :=
  ∃ tree, (∀ d, d + depth < maxDepth → Reads (fun fuel => value fuel d) text tree) ∧
    toValue? tree = some v

theorem value_run {c : Char} (other : c ∉ ['"', '\'', '[', '\x7b']) (fuel depth : Nat)
    (cs : List Char) : value (fuel + 1) depth (c :: cs) = run (c :: cs) := by
  rw [value]
  all_goals
    rintro rest ⟨⟩
    exact other (by decide)

theorem stands_bool (depth : Nat) (b : Bool) :
    Stands (Written.value '=' (.bool b)) depth (.bool b) := by
  refine ⟨.bool b, fun d _ => reads_of_succ ?_ fun fuel rest _ ends => ?_, rfl⟩
  · cases b <;> exact ⟨_, _, rfl, by decide⟩
  · cases b
    · have all := List.all_eq_true.1 (rfl : ['f', 'a', 'l', 's', 'e'].all isRunChar = true)
      exact (value_run (by decide) fuel d _).trans (run_append all ends rfl)
    · have all := List.all_eq_true.1 (rfl : ['t', 'r', 'u', 'e'].all isRunChar = true)
      exact (value_run (by decide) fuel d _).trans (run_append all ends rfl)

theorem stands_integer (depth : Nat) {n : Int}
    (inRange : -9223372036854775808 ≤ n ∧ n < 18446744073709551616)
    (signed : n < 9223372036854775808) :
    Stands (numeral n) depth (.number (.integer n inRange)) := by
  obtain ⟨c, cs, text, number⟩ := exists_cons_numeral n
  have all : ∀ c ∈ numeral n, isRunChar c = true := by
    intro c mem
    rcases number_of_mem_numeral mem with rfl | digit
    · rfl
    · simp [isRunChar, Char.isAlphanum, digit]
  refine ⟨.integer n, fun d _ => reads_of_succ (opens_numeral n) ?_, ?_⟩
  · intro fuel rest _ ends
    have reads := run_append all ends (date?_numeral n)
    rw [ofRun_numeral ⟨inRange.1, signed⟩, Option.map_some] at reads
    rw [text, List.cons_append] at reads ⊢
    rw [value_run (not_mem_of_number number (by decide)), reads]
  · exact congrArg some (dif_pos inRange)

/-- Three quotes do not come from a string and what follows it. -/
theorem single_quote (s : String) {rest : List Char} (ends : Ends rest) (more : List Char) :
    s.toList.flatMap char ++ '"' :: rest ≠ '"' :: '"' :: more := by
  cases s.toList with
  | nil =>
      rintro ⟨⟩
      exact absurd (ends '"' rfl) (by decide)
  | cons c cs =>
      have spelled := spelled_char c
      rw [List.flatMap_cons, List.append_assoc]
      generalize char c = text at spelled ⊢
      cases spelled with
      | plain other visible => exact fun same => other.1 (List.cons.inj same).1
      | letter e other json toml => exact nofun
      | number a b hex ascii => exact nofun

theorem stands_string (depth : Nat) (s : String) :
    Stands (Written.string s) depth (.string s) := by
  refine ⟨.string s, fun d _ => reads_of_succ (opens_string s) fun fuel rest _ ends => ?_, rfl⟩
  rw [string_append]
  have enough := length_le_flatMap_char s.toList
  -- an empty string would open three quotes if another followed it
  rw [value]
  · rw [basicString_append (by simp only [List.length_cons, List.length_append]; omega)]
    simp only [Option.map_some, String.ofList_toList]
  · intro more same
    exact single_quote s ends more same

theorem filler_of_opens {cs : List Char} (opens : Opens cs) : filler false cs = some cs := by
  obtain ⟨c, rest, rfl, other⟩ := opens
  simp only [between, List.mem_cons, not_or] at other
  rw [filler]
  · simp [isSpace, other]
  · rintro rest ⟨⟩
    exact absurd rfl other.2.2.2.1

theorem skipSpace_of_opens {cs : List Char} (opens : Opens cs) : skipSpace cs = cs := by
  obtain ⟨c, rest, rfl, other⟩ := opens
  simp only [between, List.mem_cons, not_or] at other
  simp [skipSpace, isSpace, other]

theorem simpleKey_string (key : String) (rest : List Char) :
    simpleKey (Written.string key ++ rest) = some (key, rest) := by
  have enough := length_le_flatMap_char key.toList
  rw [string_append, simpleKey,
    basicString_append (by simp only [List.length_cons, List.length_append]; omega)]
  simp only [Option.map_some, String.ofList_toList]

theorem keyPath_string (key : String) (rest : List Char) :
    keyPath (Written.string key ++ '=' :: rest) = some ([], key, '=' :: rest) := by
  rw [keyPath, keys, skipSpace_of_opens ((opens_string key).append _), simpleKey_string]
  rfl

section Nested

variable {d : Nat}

theorem items_last {text : List Char} {tree : Toml}
    (first : Reads (fun fuel => value fuel d) text tree) :
    Closes (fun fuel => items fuel d) ']' text [tree] := by
  refine closes_of_succ fun fuel rest enough => ?_
  have reads : value fuel d (text ++ ']' :: rest) = some (tree, ']' :: rest) :=
    first.reads fuel _ enough (ends_cons (by decide) rest)
  rw [items, reads]
  rfl

theorem items_next {text more : List Char} {tree : Toml} {trees : List Toml}
    (first : Reads (fun fuel => value fuel d) text tree) (opens : Opens more)
    (closes : Closes (fun fuel => items fuel d) ']' more trees) :
    Closes (fun fuel => items fuel d) ']' (text ++ ',' :: more) (tree :: trees) := by
  refine closes_of_succ fun fuel rest enough => ?_
  rw [List.length_append, List.length_cons] at enough
  have reads : value fuel d (text ++ ',' :: (more ++ ']' :: rest)) =
      some (tree, ',' :: (more ++ ']' :: rest)) :=
    first.reads fuel _ (by omega) (ends_cons (by decide) _)
  have others : items fuel d (more ++ ']' :: rest) = some (trees, rest) :=
    closes fuel rest (by omega)
  rw [List.append_assoc, List.cons_append, items, reads]
  have fill : filler false (',' :: (more ++ ']' :: rest)) =
      some (',' :: (more ++ ']' :: rest)) := rfl
  simp only [Option.bind_eq_bind, Option.bind_some, fill, filler_of_opens (opens.append _)]
  split
  · next same => exact absurd same ((opens.append _).ne_cons (by decide) _)
  · rw [others]
    rfl

theorem exists_items {depth : Nat} {vs : List Value}
    (stands : ∀ v ∈ vs, Stands (Written.value '=' v) depth v.sorted) :
    ∃ trees, (∀ d, d + depth < maxDepth → List.Forall₂ (Reads fun fuel => value fuel d)
        (vs.map (Written.value '=')) trees) ∧
      toValues? trees = some (Value.sortedItems vs) := by
  induction vs with
  | nil => exact ⟨[], fun _ _ => .nil, rfl⟩
  | cons v vs ih =>
      obtain ⟨⟨tree, reads, same⟩, others⟩ := List.forall_mem_cons.1 stands
      obtain ⟨trees, reads_others, same_others⟩ := ih others
      refine ⟨tree :: trees, fun d room => .cons (reads d room) (reads_others d room), ?_⟩
      rw [toValues?, same, same_others]
      rfl

theorem value_bracket {cs : List Char} (opens : Opens cs) (room : d + 1 < maxDepth) (fuel : Nat) :
    value (fuel + 1) d ('[' :: cs) =
      (items fuel (d + 1) cs).map fun (items, rest) => (.array items, rest) := by
  rw [value, if_neg (Nat.not_le_of_lt room), filler_of_opens opens]
  simp only [Option.bind_eq_bind, Option.bind_some]
  split
  · exact absurd rfl (opens.ne_cons (by decide) _)
  · rfl

theorem stands_array {depth : Nat} {vs : List Value}
    (stands : ∀ v ∈ vs, Stands (Written.value '=' v) depth v.sorted) :
    Stands (Written.value '=' (.array vs)) (depth + 1) (Value.array vs).sorted := by
  obtain ⟨trees, reads, same⟩ := exists_items stands
  rw [Written.value, values_eq_map]
  refine ⟨.array trees, fun d room => reads_of_succ ⟨_, _, rfl, by decide⟩ ?_, ?_⟩
  · intro fuel rest enough _
    have reads := reads (d + 1) (by omega)
    rw [List.cons_append, List.append_assoc, List.singleton_append]
    cases vs with
    | nil =>
        cases reads
        change value (fuel + 1) d ('[' :: ']' :: rest) = _
        rw [value, if_neg (by omega)]
        rfl
    | cons v vs =>
        obtain ⟨opens, closes⟩ := closes_joined Reads.opens items_last items_next reads
          (List.cons_ne_nil _ _)
        rw [List.length_cons, List.length_append, List.length_singleton] at enough
        have closes := closes fuel rest (by omega)
        simp only at closes
        rw [value_bracket (opens.append _) (by omega), closes, Option.map_some]
  · rw [toValue?, same, Option.map_some, Value.sorted]

theorem put_new {key : String} {v : Toml} {es : Entries Toml} (new : key ∉ Entries.keys es) :
    put [] key v .header es = some (.header, es ++ [(key, v)]) := by
  have absent : ¬(Entries.get? key es).isSome = true := fun present =>
    new (Entries.get?_isSome_iff.1 present)
  simp only [put, atPath]
  rw [if_neg (by decide), if_neg absent]

def ReadsMember (d : Nat) (text : List Char) (m : String × Toml) : Prop :=
  ∃ tail, text = Written.string m.1 ++ '=' :: tail ∧ Reads (fun fuel => value fuel d) tail m.2

theorem ReadsMember.opens {text : List Char} {m : String × Toml} (member : ReadsMember d text m) :
    Opens text := by
  obtain ⟨tail, rfl, -⟩ := member
  exact (opens_string m.1).append _

section Members

variable {es : Entries Toml}

theorem members_last {text : List Char} {m : String × Toml} (member : ReadsMember d text m)
    (new : m.1 ∉ Entries.keys es) :
    Closes (fun fuel => members fuel d es) '\x7d' text (es ++ [m]) := by
  obtain ⟨tail, rfl, tree⟩ := member
  refine closes_of_succ fun fuel rest enough => ?_
  rw [List.length_append, List.length_cons] at enough
  have reads : value fuel d (tail ++ '\x7d' :: rest) = some (m.2, '\x7d' :: rest) :=
    tree.reads fuel _ (by omega) (ends_cons (by decide) rest)
  rw [List.append_assoc, List.cons_append, members, keyPath_string]
  simp only [Option.bind_eq_bind, Option.bind_some, skipSpace_of_opens (tree.opens.append _), reads,
    put_new new]
  rfl

theorem members_next {text more : List Char} {m : String × Toml} {all : Entries Toml}
    (member : ReadsMember d text m) (new : m.1 ∉ Entries.keys es)
    (closes : Closes (fun fuel => members fuel d (es ++ [m])) '\x7d' more all) :
    Closes (fun fuel => members fuel d es) '\x7d' (text ++ ',' :: more) all := by
  obtain ⟨tail, rfl, tree⟩ := member
  refine closes_of_succ fun fuel rest enough => ?_
  rw [List.length_append, List.length_append, List.length_cons, List.length_cons] at enough
  have reads : value fuel d (tail ++ ',' :: (more ++ '\x7d' :: rest)) =
      some (m.2, ',' :: (more ++ '\x7d' :: rest)) :=
    tree.reads fuel _ (by omega) (ends_cons (by decide) _)
  rw [List.append_assoc, List.append_assoc, List.cons_append, List.cons_append, members,
    keyPath_string]
  simp only [Option.bind_eq_bind, Option.bind_some, skipSpace_of_opens (tree.opens.append _), reads,
    put_new new]
  exact closes fuel rest (by omega)

theorem members_joined {texts : List (List Char)} {ms : Entries Toml}
    (each : List.Forall₂ (ReadsMember d) texts ms) (nonempty : texts ≠ [])
    (distinct : (Entries.keys (es ++ ms)).Nodup) :
    Opens (joined texts) ∧
      Closes (fun fuel => members fuel d es) '\x7d' (joined texts) (es ++ ms) := by
  -- on the members still to come, with those before them in `es`
  induction each generalizing es with
  | nil => exact absurd rfl nonempty
  | @cons text m texts ms first others ih =>
      have regrouped : es ++ m :: ms = (es ++ [m]) ++ ms := by simp
      have new := Entries.not_mem_keys_of_nodup distinct
      refine ⟨opens_joined first.opens texts, ?_⟩
      cases others with
      | nil =>
          rw [joined, List.intercalate_singleton]
          exact members_last first new
      | cons second others =>
          rw [regrouped] at distinct ⊢
          obtain ⟨-, more⟩ := ih (List.cons_ne_nil _ _) distinct
          rw [joined, List.intercalate_cons_cons, List.append_assoc]
          exact members_next first new more

end Members

theorem exists_members {depth : Nat} {ms : Entries Value}
    (stands : ∀ m ∈ ms, Stands (Written.value '=' m.2) depth m.2.sorted) :
    ∃ trees, (∀ d, d + depth < maxDepth → List.Forall₂ (ReadsMember d)
        (ms.map fun m => Written.string m.1 ++ '=' :: Written.value '=' m.2) trees) ∧
      Entries.keys trees = Entries.keys ms ∧
      toMembers? trees = some (Value.sortedMembers ms) := by
  induction ms with
  | nil => exact ⟨[], fun _ _ => .nil, rfl, rfl⟩
  | cons m ms ih =>
      obtain ⟨⟨tree, reads, same⟩, others⟩ := List.forall_mem_cons.1 stands
      obtain ⟨trees, reads_others, keys, same_others⟩ := ih others
      refine ⟨(m.1, tree) :: trees,
        fun d room => .cons ⟨_, rfl, reads d room⟩ (reads_others d room), ?_, ?_⟩
      · rw [Entries.keys_cons, Entries.keys_cons, keys]
      · rw [toMembers?, same, same_others]
        rfl

theorem value_brace {cs : List Char} (opens : Opens cs) (room : d + 1 < maxDepth) (fuel : Nat) :
    value (fuel + 1) d ('\x7b' :: cs) =
      (members fuel (d + 1) [] cs).map fun (entries, rest) => (.table .inline entries, rest) := by
  rw [value, if_neg (Nat.not_le_of_lt room), skipSpace_of_opens opens]
  split
  · exact absurd rfl (opens.ne_cons (by decide) _)
  · rfl

theorem toValue?_table {trees : Entries Toml} {ms : Entries Value}
    (keys : Entries.keys trees = Entries.keys ms)
    (unmarked : (Entries.keys ms).head? ≠ some dateTimeKey)
    (same : toMembers? trees = some (Value.sortedMembers ms)) (form : TableForm) :
    toValue? (.table form trees) = some (Value.object ms).sorted := by
  have no_date : isMarked trees = false := by
    rw [← keys] at unmarked
    cases trees with
    | nil => rfl
    | cons m trees => simpa [isMarked] using unmarked
  rw [toValue?, no_date, same]
  rfl

theorem stands_object {depth : Nat} {ms : Entries Value} (distinct : (Entries.keys ms).Nodup)
    (unmarked : (Entries.keys ms).head? ≠ some dateTimeKey)
    (stands : ∀ m ∈ ms, Stands (Written.value '=' m.2) depth m.2.sorted) :
    Stands (Written.value '=' (.object ms)) (depth + 1) (Value.object ms).sorted := by
  obtain ⟨trees, reads, keys, same⟩ := exists_members stands
  rw [Written.value, membersOf_eq_map]
  refine ⟨.table .inline trees, fun d room => reads_of_succ ⟨_, _, rfl, by decide⟩ ?_,
    toValue?_table keys unmarked same .inline⟩
  intro fuel rest enough _
  have reads := reads (d + 1) (by omega)
  rw [List.cons_append, List.append_assoc, List.singleton_append]
  cases ms with
  | nil =>
      cases reads
      change value (fuel + 1) d ('\x7b' :: '\x7d' :: rest) = _
      rw [value, if_neg (by omega)]
      rfl
  | cons m ms =>
      have distinct_trees : (Entries.keys ([] ++ trees)).Nodup := by
        rwa [List.nil_append, keys]
      obtain ⟨opens, closes⟩ := members_joined reads (List.cons_ne_nil _ _) distinct_trees
      rw [List.length_cons, List.length_append, List.length_singleton] at enough
      have closes := closes fuel rest (by omega)
      simp only at closes
      rw [value_brace (opens.append _) (by omega), closes, Option.map_some]
      rfl

/-- TOML decoding inverts TOML writing up to sorted keys. -/
theorem stands_value {depth : Nat} {v : Value} (portable : v.Portable depth) :
    Stands (Written.value '=' v) depth v.sorted := by
  induction portable with
  | bool depth b => exact stands_bool depth b
  | integer depth n inRange signed =>
      exact value_numeral '=' n inRange ▸ stands_integer depth inRange signed
  | string depth s => exact stands_string depth s
  | array each ih => exact stands_array ih
  | object distinct unmarked each ih => exact stands_object distinct unmarked ih

end Nested

end Formwork.Toml
