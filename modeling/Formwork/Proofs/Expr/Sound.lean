import Formwork.Proofs.Expr.Phrases

/-!
# Soundness of the parser

On success, the tokens that a parser has consumed derive the tree that it returns.
-/

namespace Formwork.Expr.Parse

open Grammar

/-- On success the parser has consumed a phrase of the tree that it returns. -/
def Sound (P : Phrase) (parser : Parser) : Prop :=
  ∀ ts parsed rest, parser ts = .ok (parsed, rest) →
    ∃ front d, ts = front ++ rest ∧ Derives P d (front.map (·.token)) parsed.tree

section Inversion

variable {ts rest : List Located}

theorem ok_of_bind {ε α β : Type} {m : Except ε α} {f : α → Except ε β} {b : β}
    (h : (m >>= f) = .ok b) : ∃ a, m = .ok a ∧ f a = .ok b := by
  cases m with
  | error e => cases h
  | ok a => exact ⟨a, rfl, h⟩

theorem exists_of_eat? {p : Punct} (h : eat? p ts = some rest) :
    ∃ t, ts = t :: rest ∧ t.token = .punct p := by
  cases ts with
  | nil => cases h
  | cons t behind =>
      rw [eat?] at h
      split at h
      · next is_punct =>
        cases h
        exact ⟨t, rfl, is_punct⟩
      · cases h

theorem exists_of_expect {p : Punct} (h : expect p ts = .ok rest) :
    ∃ t, ts = t :: rest ∧ t.token = .punct p := by
  unfold expect at h
  split at h
  · next behind eaten =>
    cases h
    exact exists_of_eat? eaten
  · cases h

theorem exists_of_operator? {l : Level} {f : Expr → Expr → Expr}
    (h : l.operator? ts = some (f, rest)) :
    ∃ t p, ts = t :: rest ∧ t.token = .punct p ∧ Joins l p f := by
  unfold Level.operator? at h
  split at h
  · next p offset behind =>
    obtain ⟨g, joined, same⟩ := Option.map_eq_some_iff.1 h
    cases same
    exact ⟨_, p, rfl, rfl, joins_iff.2 joined⟩
  · cases h

theorem exists_of_signAt? {op : UnaryOp} (h : signAt? ts = some op) :
    ∃ t p behind, ts = t :: behind ∧ t.token = .punct p ∧ p.symbol = op.symbol := by
  cases ts with
  | nil => cases h
  | cons t behind =>
      unfold signAt? at h
      rw [peek_cons] at h
      split at h
      · next is_bang =>
        cases h
        exact ⟨t, .bang, behind, rfl, is_bang, rfl⟩
      · next is_minus =>
        cases h
        exact ⟨t, .minus, behind, rfl, is_minus, rfl⟩
      · cases h

theorem eq_cons_advance (ts : List Located) (not_end : (peek ts).token ≠ .eof) :
    ts = peek ts :: advance ts := by
  cases ts with
  | nil => exact (not_end rfl).elim
  | cons t behind => exact congrArg _ (advance_cons not_end behind).symm

theorem tree_of_parent {limit below : Nat} {tree : Expr} {parsed : Parsed}
    (h : Parsed.parent limit tree below = .ok parsed) : parsed.tree = tree := by
  unfold Parsed.parent at h
  split at h
  · cases h
  · cases h
    rfl

end Inversion

section Combinators

variable {limit : Nat}

theorem sound_tooDeep (P : Phrase) : Sound P (tooDeep limit) := by
  intro ts parsed rest read
  cases read

theorem sound_chain {operand : Parser} {l : Level} (sound : Sound (Grammar.operand l) operand)
    {steps : Nat} {left : Parsed} {ts rest : List Located} {parsed : Parsed}
    (read : chain limit operand l steps left ts = .ok (parsed, rest)) {before : List Located}
    {d : Nat} (derived : Derives (.level l) d (before.map (·.token)) left.tree) :
    ∃ front d, ts = front ++ rest ∧
      Derives (.level l) d ((before ++ front).map (·.token)) parsed.tree := by
  induction steps generalizing left ts before d with
  | zero =>
      unfold chain at read
      split at read
      · cases read
        exact ⟨[], d, rfl, by rw [List.append_nil]; exact derived⟩
      · cases read
  | succ steps ih =>
      unfold chain at read
      split at read
      · cases read
        exact ⟨[], d, rfl, by rw [List.append_nil]; exact derived⟩
      · next join behind found =>
        obtain ⟨operator, p, rfl, is_operator, joins⟩ := exists_of_operator? found
        dsimp only at read
        split at read
        · cases read
        · next right after read_right =>
          obtain ⟨front, d', rfl, derived_right⟩ := sound _ _ _ read_right
          split at read
          · cases read
          · next joined is_parent =>
            have joined_derived : Derives (.level l) (max d d')
                ((before ++ operator :: front).map (·.token)) joined.tree := by
              rw [tree_of_parent is_parent, List.map_append, List.map_cons, is_operator]
              exact .join derived joins derived_right
            obtain ⟨more, d'', rfl, all_derived⟩ := ih read joined_derived
            refine ⟨operator :: (front ++ more), d'', ?_, ?_⟩
            · simp only [List.cons_append, List.append_assoc]
            · simpa only [List.append_assoc, List.cons_append] using all_derived

theorem sound_level {depth : Nat} {l : Level}
    (sound : Sound (operand l) (reader limit depth (operand l))) :
    Sound (.level l) (reader limit depth (.level l)) := by
  intro ts parsed rest read
  rw [reader_level] at read
  obtain ⟨⟨left, behind⟩, read_left, read_chain⟩ := ok_of_bind read
  obtain ⟨front, d, rfl, derived⟩ := sound _ _ _ read_left
  obtain ⟨more, d', rfl, all_derived⟩ := sound_chain sound read_chain (.operand derived)
  exact ⟨front ++ more, d', (List.append_assoc _ _ _).symm, all_derived⟩

theorem sound_conditionalOf {test branch : Parser} (sound : Sound (.level .or) test)
    (sound_branch : Sound .conditional branch) :
    Sound .conditional (conditionalOf limit test branch) := by
  intro ts parsed rest read
  unfold conditionalOf at read
  obtain ⟨⟨tested, behind⟩, read_test, read_rest⟩ := ok_of_bind read
  obtain ⟨front, d, split, derived⟩ := sound _ _ _ read_test
  dsimp only at read_rest
  split at read_rest
  · cases read_rest
    exact ⟨front, _, split, .test derived⟩
  · next after eaten =>
    obtain ⟨question, rfl, is_question⟩ := exists_of_eat? eaten
    obtain ⟨⟨consequent, behind'⟩, read_consequent, read_colon⟩ := ok_of_bind read_rest
    obtain ⟨front', d', split', derived'⟩ := sound_branch _ _ _ read_consequent
    obtain ⟨after', expected, read_last⟩ := ok_of_bind read_colon
    obtain ⟨colon, rfl, is_colon⟩ := exists_of_expect expected
    obtain ⟨⟨alternate, behind''⟩, read_alternate, read_parent⟩ := ok_of_bind read_last
    obtain ⟨front'', d'', split'', derived''⟩ := sound_branch _ _ _ read_alternate
    obtain ⟨whole, is_parent, read_end⟩ := ok_of_bind read_parent
    cases read_end
    refine ⟨front ++ question :: (front' ++ colon :: front''), 1 + max d (max d' d''), ?_, ?_⟩
    · rw [split, split', split'']
      simp only [List.append_assoc, List.cons_append]
    · rw [tree_of_parent is_parent]
      simp only [List.map_append, List.map_cons, is_question, is_colon]
      exact .choice derived derived' derived''

theorem sound_primary {nested : Parser} (sound : Sound .conditional nested) :
    Sound .primary (primary nested) := by
  intro ts parsed rest read
  unfold primary at read
  split at read
  · next n is_number =>
    cases read
    have split := eq_cons_advance ts (by rw [is_number]; nofun)
    refine ⟨[peek ts], 0, split, ?_⟩
    rw [List.map_singleton, is_number]
    exact .number n
  · next s is_string =>
    cases read
    have split := eq_cons_advance ts (by rw [is_string]; nofun)
    refine ⟨[peek ts], 0, split, ?_⟩
    rw [List.map_singleton, is_string]
    exact .string s
  · next name is_name =>
    cases read
    have split := eq_cons_advance ts (by rw [is_name]; nofun)
    refine ⟨[peek ts], 0, split, ?_⟩
    rw [List.map_singleton, is_name]
    exact .name (names_iff.2 rfl)
  · next is_opening =>
    have split := eq_cons_advance ts (by rw [is_opening]; nofun)
    obtain ⟨⟨inner, behind⟩, read_inner, read_closing⟩ := ok_of_bind read
    obtain ⟨front, d, same, derived⟩ := sound _ _ _ read_inner
    obtain ⟨after, expected, read_end⟩ := ok_of_bind read_closing
    obtain ⟨closing, rfl, is_closing⟩ := exists_of_expect expected
    cases read_end
    refine ⟨peek ts :: (front ++ [closing]), d, ?_, ?_⟩
    · rw [same] at split
      simpa only [List.cons_append, List.append_assoc, List.nil_append] using split
    · simp only [List.map_append, List.map_cons, List.map_nil, is_opening, is_closing]
      exact .group derived
  · cases read

theorem sound_access {nested : Parser} (sound : Sound .conditional nested) {object : Parsed}
    {ts rest : List Located} {parsed : Parsed}
    (read : access limit nested object ts = .ok (some (parsed, rest))) {before : List Located}
    {d : Nat} (derived : Derives .member d (before.map (·.token)) object.tree) :
    ∃ front d, ts = front ++ rest ∧
      Derives .member d ((before ++ front).map (·.token)) parsed.tree := by
  unfold access at read
  split at read
  · next brackets behind eaten =>
    obtain ⟨dot, rfl, is_dot⟩ := exists_of_eat? eaten
    split at read
    · next name is_name =>
      obtain ⟨whole, is_parent, read_end⟩ := ok_of_bind read
      cases read_end
      have split := eq_cons_advance behind (by rw [is_name]; nofun)
      refine ⟨[dot, peek behind], d, congrArg _ split, ?_⟩
      rw [tree_of_parent is_parent]
      simp only [List.map_append, List.map_cons, List.map_nil, is_dot, is_name]
      exact .property derived name
    · cases read
  · next behind no_dot eaten =>
    obtain ⟨opening, rfl, is_opening⟩ := exists_of_eat? eaten
    obtain ⟨⟨property, behind'⟩, read_property, read_closing⟩ := ok_of_bind read
    obtain ⟨front, d', rfl, derived'⟩ := sound _ _ _ read_property
    obtain ⟨after, expected, read_parent⟩ := ok_of_bind read_closing
    obtain ⟨closing, rfl, is_closing⟩ := exists_of_expect expected
    obtain ⟨whole, is_parent, read_end⟩ := ok_of_bind read_parent
    cases read_end
    refine ⟨opening :: (front ++ [closing]), max d d', ?_, ?_⟩
    · simp only [List.cons_append, List.append_assoc, List.nil_append]
    · rw [tree_of_parent is_parent]
      simp only [List.map_append, List.map_cons, List.map_nil, is_opening, is_closing]
      exact .index derived derived'
  · cases read

theorem sound_accesses {nested : Parser} (sound : Sound .conditional nested) {steps : Nat}
    {object : Parsed} {ts rest : List Located} {parsed : Parsed}
    (read : accesses limit nested steps object ts = .ok (parsed, rest)) {before : List Located}
    {d : Nat} (derived : Derives .member d (before.map (·.token)) object.tree) :
    ∃ front d, ts = front ++ rest ∧
      Derives .member d ((before ++ front).map (·.token)) parsed.tree := by
  induction steps generalizing object ts before d with
  | zero =>
      unfold accesses at read
      split at read
      · cases read
      · cases read
        exact ⟨[], d, rfl, by rw [List.append_nil]; exact derived⟩
      · cases read
  | succ steps ih =>
      unfold accesses at read
      split at read
      · cases read
      · cases read
        exact ⟨[], d, rfl, by rw [List.append_nil]; exact derived⟩
      · next member behind accessed =>
        obtain ⟨front, d', rfl, member_derived⟩ := sound_access sound accessed derived
        obtain ⟨more, d'', rfl, all_derived⟩ := ih read member_derived
        refine ⟨front ++ more, d'', (List.append_assoc _ _ _).symm, ?_⟩
        rw [← List.append_assoc]
        exact all_derived

theorem sound_memberOf {nested : Parser} (sound : Sound .conditional nested) :
    Sound .member (memberOf limit nested) := by
  intro ts parsed rest read
  obtain ⟨⟨object, behind⟩, read_object, read_accesses⟩ := ok_of_bind read
  obtain ⟨front, d, rfl, derived⟩ := sound_primary sound _ _ _ read_object
  obtain ⟨more, d', rfl, all_derived⟩ := sound_accesses sound read_accesses (.object derived)
  exact ⟨front ++ more, d', (List.append_assoc _ _ _).symm, all_derived⟩

theorem sound_signed {deeper nested : Parser} (sound_deeper : Sound .signed deeper)
    (sound : Sound .conditional nested) : Sound .signed (signed limit deeper nested) := by
  intro ts parsed rest read
  unfold signed at read
  split at read
  · next op found =>
    obtain ⟨sign, p, behind, rfl, is_sign, written⟩ := exists_of_signAt? found
    obtain ⟨⟨operand, after⟩, read_operand, read_parent⟩ := ok_of_bind read
    rw [advance_cons (by rw [is_sign]; nofun)] at read_operand
    obtain ⟨front, d, rfl, derived⟩ := sound_deeper _ _ _ read_operand
    obtain ⟨whole, is_parent, read_end⟩ := ok_of_bind read_parent
    cases read_end
    refine ⟨sign :: front, 1 + d, rfl, ?_⟩
    rw [tree_of_parent is_parent, List.map_cons, is_sign]
    exact .sign written derived
  · obtain ⟨front, d, split, derived⟩ := sound_memberOf sound _ _ _ read
    exact ⟨front, d, split, .unsigned derived⟩

end Combinators

theorem sound_levels {limit depth : Nat} (sound : Sound .signed (unary limit depth)) (l : Level) :
    Sound (.level l) (reader limit depth (.level l)) :=
  level_induction (motive := fun P => Sound P (reader limit depth P)) sound
    (fun _ sound_operand => sound_level sound_operand) l

/-- With any limits, the parsers of the two nested phrases are sound. -/
theorem sound_nested (limit depth : Nat) :
    Sound .conditional (conditional limit depth) ∧ Sound .signed (unary limit depth) := by
  induction depth with
  | zero =>
      have sound_conditional : Sound .conditional (conditional limit 0) := by
        rw [conditional_zero]
        exact sound_tooDeep _
      refine ⟨sound_conditional, ?_⟩
      rw [unary_eq]
      exact sound_signed (sound_tooDeep _) sound_conditional
  | succ depth ih =>
      obtain ⟨sound_conditional, sound_unary⟩ := ih
      have sound_next : Sound .conditional (conditional limit (depth + 1)) := by
        rw [conditional_succ]
        exact sound_conditionalOf (sound_levels sound_unary .or) sound_conditional
      refine ⟨sound_next, ?_⟩
      rw [unary_eq]
      exact sound_signed sound_unary sound_next

theorem sound_reader (limit depth : Nat) (P : Phrase) : Sound P (reader limit depth P) := by
  obtain ⟨sound_conditional, sound_unary⟩ := sound_nested limit depth
  cases P with
  | conditional => exact sound_conditional
  | level l => exact sound_levels sound_unary l
  | signed => exact sound_unary
  | member => exact sound_memberOf sound_conditional
  | primary => exact sound_primary sound_conditional

end Formwork.Expr.Parse
