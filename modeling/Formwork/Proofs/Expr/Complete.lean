import Formwork.Proofs.Expr.Phrases

/-!
# Completeness of the parser

Before tokens at which its parser stops, a derivation within the limits is parsed to its tree, and
one beyond them is `TooDeep`. The left-recursive phrases are parsed by loops, for which the
invariant is `Reaches`.
-/

namespace Formwork.Expr.Parse

open Grammar

/-- Nesting and height are within the limits. -/
def Fits (limit depth d : Nat) (e : Expr) : Prop := d ≤ depth ∧ e.height ≤ limit

instance (limit depth d : Nat) (e : Expr) : Decidable (Fits limit depth d e) :=
  inferInstanceAs (Decidable (_ ∧ _))

/-- The expected answer on a phrase: its tree and the rest, or `TooDeep`. -/
def answer (limit depth d : Nat) (e : Expr) (rest : List Located) :
    Except ExpressionError (Parsed × List Located) :=
  if Fits limit depth d e then .ok (⟨e, e.height⟩, rest) else .error (.tooDeep limit)

/-- The parser of `P` answers the derivation before any rest that `P` stops at. -/
def Reads (limit : Nat) (P : Phrase) (d : Nat) (ts : List Token) (e : Expr) : Prop :=
  ∀ depth front rest, front.map (·.token) = ts → Stops P rest →
    reader limit depth P (front ++ rest) = answer limit depth d e rest

/-- The invariant of a loop at a derived phrase: if the phrase fits, the loop continues with steps
for the rest of the height, and otherwise the result is `TooDeep`. -/
structure Reaches (limit depth d : Nat) (e : Expr)
    (result : Except ExpressionError (Parsed × List Located))
    (goOn : Nat → Except ExpressionError (Parsed × List Located)) : Prop where
  fit : Fits limit depth d e → ∃ steps, limit < steps + e.height ∧ result = goOn steps
  deep : ¬Fits limit depth d e → result = .error (.tooDeep limit)

def ReadsLevel (limit : Nat) (l : Level) (d : Nat) (ts : List Token) (e : Expr) : Prop :=
  ∀ depth front rest, front.map (·.token) = ts → Stops (operand l) rest →
    Reaches limit depth d e (reader limit depth (.level l) (front ++ rest)) fun steps =>
      chain limit (reader limit depth (operand l)) l steps ⟨e, e.height⟩ rest

def ReadsMember (limit : Nat) (d : Nat) (ts : List Token) (e : Expr) : Prop :=
  ∀ depth front rest, front.map (·.token) = ts →
    Reaches limit depth d e (reader limit depth .member (front ++ rest)) fun steps =>
      accesses limit (conditional limit depth) steps ⟨e, e.height⟩ rest

/-- The induction hypothesis for each kind of phrase. -/
def ReadsSpine (limit : Nat) : Phrase → Nat → List Token → Expr → Prop
  | .level l => ReadsLevel limit l
  | .member => ReadsMember limit
  | P => Reads limit P

theorem split_front {front : List Located} {ts ts' : List Token} {p : Punct}
    (h : front.map (·.token) = ts ++ .punct p :: ts') :
    ∃ left t right, front = left ++ t :: right ∧ left.map (·.token) = ts ∧
      t.token = .punct p ∧ right.map (·.token) = ts' := by
  obtain ⟨left, behind, rfl, left_tokens, behind_tokens⟩ := List.map_eq_append_iff.1 h
  obtain ⟨t, right, rfl, is_punct, right_tokens⟩ := List.map_eq_cons_iff.1 behind_tokens
  exact ⟨left, t, right, rfl, left_tokens, is_punct, right_tokens⟩

section Answers

variable {limit depth d : Nat} {e : Expr} {rest : List Located}

theorem answer_of_fits (fits : Fits limit depth d e) :
    answer limit depth d e rest = .ok (⟨e, e.height⟩, rest) := if_pos fits

theorem answer_of_not_fits (deep : ¬Fits limit depth d e) :
    answer limit depth d e rest = .error (.tooDeep limit) := if_neg deep

theorem answer_zero : answer limit 0 (1 + d) e rest = .error (.tooDeep limit) := by
  refine answer_of_not_fits ?_
  unfold Fits
  omega

theorem answer_bind {depth' d' : Nat} {e' : Expr} {rest' : List Located}
    {k : Parsed × List Located → Except ExpressionError (Parsed × List Located)}
    (part : Fits limit depth' d' e' → Fits limit depth d e)
    (next : Fits limit depth d e → k (⟨e, e.height⟩, rest) = answer limit depth' d' e' rest') :
    (answer limit depth d e rest >>= k) = answer limit depth' d' e' rest' := by
  by_cases fits : Fits limit depth d e
  · rw [answer_of_fits fits]
    exact next fits
  · rw [answer_of_not_fits fits, answer_of_not_fits fun whole => fits (part whole)]
    rfl

theorem parent_of_le {tree : Expr} {below : Nat} (height : tree.height = 1 + below)
    (low : tree.height ≤ limit) : Parsed.parent limit tree below = .ok ⟨tree, tree.height⟩ := by
  rw [Parsed.parent, if_neg (by omega), height]

theorem parent_of_lt {tree : Expr} {below : Nat} (height : tree.height = 1 + below)
    (high : limit < tree.height) : Parsed.parent limit tree below = .error (.tooDeep limit) := by
  rw [Parsed.parent, if_pos (by omega)]

theorem parent_bind {tree : Expr} {below : Nat} (height : tree.height = 1 + below)
    (nested : d ≤ depth) :
    (do
      let parsed ← Parsed.parent limit tree below
      pure (parsed, rest) : Except ExpressionError (Parsed × List Located)) =
      answer limit depth d tree rest := by
  by_cases low : tree.height ≤ limit
  · rw [parent_of_le height low, answer_of_fits ⟨nested, low⟩]
    rfl
  · rw [parent_of_lt height (by omega), answer_of_not_fits fun fits => low fits.2]
    rfl

variable {result : Except ExpressionError (Parsed × List Located)}
  {goOn : Nat → Except ExpressionError (Parsed × List Located)}

/-- A loop starts behind its first operand with `limit` steps. -/
theorem Reaches.of_answer
    {k : Parsed × List Located → Except ExpressionError (Parsed × List Located)}
    (start : k (⟨e, e.height⟩, rest) = goOn limit) :
    Reaches limit depth d e (Parse.answer limit depth d e rest >>= k) goOn := by
  constructor
  · intro fits
    have high := one_le_height e
    rw [answer_of_fits fits]
    exact ⟨limit, by omega, start⟩
  · intro deep
    rw [answer_of_not_fits deep]
    rfl

theorem Reaches.of_part {d' : Nat} {e' : Expr}
    (part : Fits limit depth d e → Fits limit depth d' e') (deep : ¬Fits limit depth d' e')
    (failed : result = .error (.tooDeep limit)) : Reaches limit depth d e result goOn :=
  ⟨fun fits => (deep (part fits)).elim, fun _ => failed⟩

theorem Reaches.answer (h : Reaches limit depth d e result goOn)
    (stops : ∀ steps, goOn steps = .ok (⟨e, e.height⟩, rest)) :
    result = answer limit depth d e rest := by
  by_cases fits : Fits limit depth d e
  · obtain ⟨steps, -, reached⟩ := h.fit fits
    rw [reached, stops, answer_of_fits fits]
  · rw [h.deep fits, answer_of_not_fits fits]

end Answers

section Spines

variable {limit d : Nat} {ts : List Token} {e : Expr}

theorem ReadsLevel.reads {l : Level} (h : ReadsLevel limit l d ts e) :
    Reads limit (.level l) d ts e := by
  intro depth front rest tokens stops
  refine (h depth front rest tokens stops.operand).answer fun steps => ?_
  unfold chain
  rw [stops.operator?_eq_none]

theorem ReadsMember.reads (h : ReadsMember limit d ts e) : Reads limit .member d ts e := by
  intro depth front rest tokens stops
  refine (h depth front rest tokens).answer fun steps => ?_
  unfold accesses access
  rw [stops.dot, stops.openBracket]

theorem ReadsSpine.reads {P : Phrase} (h : ReadsSpine limit P d ts e) : Reads limit P d ts e := by
  cases P with
  | level l => exact ReadsLevel.reads h
  | member => exact ReadsMember.reads h
  | conditional | signed | primary => exact h

end Spines

section Access

variable {limit : Nat} {nested : Parser} {rest : List Located}

theorem access_property (object : Parsed) {dot property : Located} {name : String}
    (is_dot : dot.token = .punct .dot) (is_name : property.token = .ident name) :
    access limit nested object (dot :: property :: rest) =
      (Parsed.parent limit (.member object.tree (.literal (.string name)))
        (max object.height 1)).map fun parsed => some (parsed, rest) := by
  rw [access, eat?_cons is_dot]
  dsimp only
  rw [peek_cons, is_name]
  dsimp only
  rw [advance_cons (by rw [is_name]; nofun)]
  rfl

theorem access_index (object : Parsed) {opening closing : Located} {inner : List Located}
    {property : Parsed} (is_opening : opening.token = .punct .openBracket)
    (is_closing : closing.token = .punct .closeBracket)
    (read : nested inner = .ok (property, closing :: rest)) :
    access limit nested object (opening :: inner) =
      (Parsed.parent limit (.member object.tree property.tree)
        (max object.height property.height)).map fun parsed => some (parsed, rest) := by
  have no_dot : eat? .dot (opening :: inner) = none :=
    eat?_eq_none.2 (by rw [peek_cons, is_opening]; nofun)
  rw [access, no_dot, eat?_cons is_opening]
  dsimp only
  rw [read]
  change (do
    let rest ← expect .closeBracket (closing :: rest)
    let parsed ← Parsed.parent limit (.member object.tree property.tree)
      (max object.height property.height)
    pure (some (parsed, rest))) = _
  rw [expect_cons is_closing]
  rfl

theorem access_index_error (object : Parsed) {opening : Located} {inner : List Located}
    {err : ExpressionError} (is_opening : opening.token = .punct .openBracket)
    (failed : nested inner = .error err) :
    access limit nested object (opening :: inner) = .error err := by
  have no_dot : eat? .dot (opening :: inner) = none :=
    eat?_eq_none.2 (by rw [peek_cons, is_opening]; nofun)
  rw [access, no_dot, eat?_cons is_opening]
  dsimp only
  rw [failed]
  rfl

theorem accesses_step {object : Parsed} {steps below : Nat} {tree : Expr} {ts : List Located}
    (step : access limit nested object ts =
      (Parsed.parent limit tree below).map fun parsed => some (parsed, rest))
    (height : tree.height = 1 + below) (higher : object.height ≤ below)
    (enough : limit < steps + object.height) :
    (tree.height ≤ limit → ∃ steps', limit < steps' + tree.height ∧
      accesses limit nested steps object ts =
        accesses limit nested steps' ⟨tree, tree.height⟩ rest) ∧
    (limit < tree.height → accesses limit nested steps object ts = .error (.tooDeep limit)) := by
  rw [accesses, step]
  constructor
  · intro low
    rw [parent_of_le height low]
    cases steps with
    | zero => omega
    | succ steps => exact ⟨steps, by omega, rfl⟩
  · intro high
    rw [parent_of_lt height high]
    rfl

end Access

section Productions

variable {limit d d' d'' : Nat} {ts ts' ts'' : List Token} {e e' e'' : Expr}

theorem reads_test (h : Reads limit (.level .or) d ts e) :
    Reads limit .conditional (1 + d) ts e := by
  intro depth front rest tokens stops
  cases depth with
  | zero =>
      rw [reader, conditional_zero, answer_zero]
      rfl
  | succ depth =>
      rw [reader, conditional_succ, conditionalOf, h depth front rest tokens stops.test]
      refine answer_bind ?_ fun fits => ?_
      · unfold Fits
        omega
      · have whole : Fits limit (depth + 1) (1 + d) e := by
          unfold Fits at *
          omega
        dsimp only
        rw [stops.question, answer_of_fits whole]
        rfl

theorem reads_choice (test : Reads limit (.level .or) d ts e)
    (consequent : Reads limit .conditional d' ts' e')
    (alternate : Reads limit .conditional d'' ts'' e'') :
    Reads limit .conditional (1 + max d (max d' d''))
      (ts ++ .punct .question :: (ts' ++ .punct .colon :: ts'')) (.conditional e e' e'') := by
  intro depth whole rest fronted stops
  have height : (Expr.conditional e e' e'').height =
    1 + max e.height (max e'.height e''.height) := rfl
  obtain ⟨front, question, behind, rfl, tokens, is_question, fronted⟩ := split_front fronted
  obtain ⟨front', colon, front'', rfl, tokens', is_colon, tokens''⟩ := split_front fronted
  simp only [List.append_assoc, List.cons_append]
  cases depth with
  | zero =>
      rw [reader, conditional_zero, answer_zero]
      rfl
  | succ depth =>
      have read' : conditional limit depth (front' ++ colon :: (front'' ++ rest)) =
          answer limit depth d' e' (colon :: (front'' ++ rest)) :=
        consequent depth front' _ tokens' (stops_of_punct is_colon rfl)
      have read'' : conditional limit depth (front'' ++ rest) = answer limit depth d'' e'' rest :=
        alternate depth front'' rest tokens'' stops
      rw [reader, conditional_succ, conditionalOf,
        test depth front _ tokens (stops_of_punct is_question rfl)]
      refine answer_bind ?_ fun fits => ?_
      · unfold Fits
        omega
      dsimp only
      rw [eat?_cons is_question]
      dsimp only
      rw [read']
      refine answer_bind ?_ fun fits' => ?_
      · unfold Fits
        omega
      dsimp only
      rw [expect_cons is_colon]
      change (conditional limit depth (front'' ++ rest) >>= _) = _
      rw [read'']
      refine answer_bind ?_ fun fits'' => ?_
      · unfold Fits
        omega
      refine parent_bind height ?_
      unfold Fits at *
      omega

theorem reads_operand {l : Level} (h : Reads limit (operand l) d ts e) :
    ReadsLevel limit l d ts e := by
  intro depth front rest tokens stops
  rw [reader_level, h depth front rest tokens stops]
  exact .of_answer rfl

theorem reads_join {l : Level} {p : Punct} {f : Expr → Expr → Expr}
    (left : ReadsLevel limit l d ts e) (joins : Joins l p f)
    (right : Reads limit (operand l) d' ts' e') :
    ReadsLevel limit l (max d d') (ts ++ .punct p :: ts') (f e e') := by
  intro depth whole rest fronted stops
  have height := height_of_joins joins e e'
  obtain ⟨front, operator, front', rfl, tokens, is_operator, tokens'⟩ := split_front fronted
  simp only [List.append_assoc, List.cons_append]
  have reached := left depth front (operator :: (front' ++ rest)) tokens
    (stops_of_punct is_operator (continues_operand_of_joins joins))
  have read' := right depth front' rest tokens' stops
  by_cases fits : Fits limit depth d e
  case neg =>
    refine .of_part ?_ fits (reached.deep fits)
    unfold Fits
    omega
  obtain ⟨steps, enough, read⟩ := reached.fit fits
  -- The left tree is higher than the number of steps that are spent, so one is left.
  cases steps with
  | zero =>
      have low := fits.2
      omega
  | succ steps =>
  rw [read, chain, operator?_cons is_operator joins]
  dsimp only
  rw [read']
  by_cases fits' : Fits limit depth d' e'
  case neg =>
    rw [answer_of_not_fits fits']
    refine .of_part ?_ fits' rfl
    unfold Fits
    omega
  rw [answer_of_fits fits']
  dsimp only
  constructor
  · intro all
    rw [parent_of_le height all.2]
    exact ⟨steps, by omega, rfl⟩
  · intro deep
    rw [parent_of_lt height]
    unfold Fits at deep fits fits'
    omega

theorem reads_sign {op : UnaryOp} {p : Punct} (written : p.symbol = op.symbol)
    (h : Reads limit .signed d ts e) :
    Reads limit .signed (1 + d) (.punct p :: ts) (.unary op e) := by
  intro depth whole rest fronted stops
  have height : (Expr.unary op e).height = 1 + e.height := rfl
  obtain ⟨sign, front, rfl, is_sign, tokens⟩ := List.map_eq_cons_iff.1 fronted
  rw [reader, unary_eq, signed, List.cons_append, signAt?_cons is_sign written]
  dsimp only
  rw [advance_cons (by rw [is_sign]; exact Token.noConfusion)]
  cases depth with
  | zero =>
      rw [answer_zero]
      rfl
  | succ depth =>
      have read : deeper limit (depth + 1) (front ++ rest) = answer limit depth d e rest :=
        h depth front rest tokens stops
      rw [read]
      refine answer_bind ?_ fun fits => ?_
      · unfold Fits
        omega
      refine parent_bind height ?_
      unfold Fits at *
      omega

theorem reads_unsigned (h : ReadsMember limit d ts e)
    (starts : ∃ t rest, ts = t :: rest ∧ ∀ p, t = .punct p → p = .openParen) :
    Reads limit .signed d ts e := by
  intro depth front rest fronted stops
  obtain ⟨t, ts', rfl, start⟩ := starts
  obtain ⟨first, behind, rfl, is_first, -⟩ := List.map_eq_cons_iff.1 fronted
  have no_sign : signAt? (first :: behind ++ rest) = none := by
    unfold signAt?
    rw [List.cons_append, peek_cons, is_first]
    split
    · cases start .bang rfl
    · cases start .minus rfl
    · rfl
  rw [reader, unary_eq, signed, no_sign]
  exact h.reads depth _ rest fronted stops

theorem reads_object (h : Reads limit .primary d ts e) : ReadsMember limit d ts e := by
  intro depth front rest tokens
  have read : primary (conditional limit depth) (front ++ rest) = answer limit depth d e rest :=
    h depth front rest tokens fun _ _ => rfl
  rw [reader, memberOf, read]
  exact .of_answer rfl

theorem reads_property (name : String) (object : ReadsMember limit d ts e) :
    ReadsMember limit d (ts ++ [.punct .dot, .ident name])
      (.member e (.literal (.string name))) := by
  intro depth whole rest fronted
  have height : (Expr.member e (.literal (.string name))).height = 1 + max e.height 1 := rfl
  obtain ⟨front, dot, behind, rfl, tokens, is_dot, fronted⟩ := split_front fronted
  obtain ⟨property, nothing, rfl, is_name, nothing_left⟩ := List.map_eq_cons_iff.1 fronted
  obtain rfl := List.map_eq_nil_iff.1 nothing_left
  simp only [List.append_assoc, List.cons_append, List.nil_append]
  have reached := object depth front (dot :: property :: rest) tokens
  by_cases fits : Fits limit depth d e
  case neg =>
    refine .of_part ?_ fits (reached.deep fits)
    unfold Fits
    omega
  obtain ⟨steps, enough, read⟩ := reached.fit fits
  obtain ⟨goes_on, too_high⟩ :=
    accesses_step (access_property ⟨e, e.height⟩ is_dot is_name) height (Nat.le_max_left _ _) enough
  rw [read]
  refine ⟨fun all => goes_on all.2, fun deep => too_high ?_⟩
  show limit < (Expr.member e (.literal (.string name))).height
  unfold Fits at deep fits
  omega

theorem reads_index (object : ReadsMember limit d ts e)
    (property : Reads limit .conditional d' ts' e') :
    ReadsMember limit (max d d')
      (ts ++ .punct .openBracket :: (ts' ++ [.punct .closeBracket])) (.member e e') := by
  intro depth whole rest fronted
  have height : (Expr.member e e').height = 1 + max e.height e'.height := rfl
  obtain ⟨front, opening, behind, rfl, tokens, is_opening, fronted⟩ := split_front fronted
  obtain ⟨front', closing, nothing, rfl, tokens', is_closing, nothing_left⟩ :=
    split_front fronted
  obtain rfl := List.map_eq_nil_iff.1 nothing_left
  simp only [List.append_assoc, List.cons_append, List.nil_append]
  have reached := object depth front (opening :: (front' ++ closing :: rest)) tokens
  have read' : conditional limit depth (front' ++ closing :: rest) =
      answer limit depth d' e' (closing :: rest) :=
    property depth front' _ tokens' (stops_of_punct is_closing rfl)
  by_cases fits : Fits limit depth d e
  case neg =>
    refine .of_part ?_ fits (reached.deep fits)
    unfold Fits
    omega
  obtain ⟨steps, enough, read⟩ := reached.fit fits
  rw [read]
  by_cases fits' : Fits limit depth d' e'
  case neg =>
    rw [answer_of_not_fits fits'] at read'
    rw [accesses, access_index_error _ is_opening read']
    refine .of_part ?_ fits' rfl
    unfold Fits
    omega
  rw [answer_of_fits fits'] at read'
  obtain ⟨goes_on, too_high⟩ :=
    accesses_step (access_index ⟨e, e.height⟩ is_opening is_closing read') height
      (Nat.le_max_left _ _) enough
  refine ⟨fun all => goes_on all.2, fun deep => too_high ?_⟩
  show limit < (Expr.member e e').height
  unfold Fits at deep fits fits'
  omega

theorem reads_leaf {t : Token} (positive : 0 < limit)
    (h : ∀ nested : Parser, ∀ (located : Located) rest, located.token = t →
      primary nested (located :: rest) = .ok (.leaf e, rest)) (leaf : e.height = 1) :
    Reads limit .primary 0 [t] e := by
  intro depth front rest tokens stops
  obtain ⟨located, nothing, rfl, is_leaf, nothing_left⟩ := List.map_eq_cons_iff.1 tokens
  obtain rfl := List.map_eq_nil_iff.1 nothing_left
  rw [reader, List.cons_append, List.nil_append, h _ located rest is_leaf, answer_of_fits]
  · rw [leaf]
    rfl
  · unfold Fits
    omega

theorem reads_group (h : Reads limit .conditional d ts e) :
    Reads limit .primary d (.punct .openParen :: (ts ++ [.punct .closeParen])) e := by
  intro depth whole rest fronted stops
  obtain ⟨opening, behind, rfl, is_opening, fronted⟩ := List.map_eq_cons_iff.1 fronted
  obtain ⟨front, closing, nothing, rfl, tokens, is_closing, nothing_left⟩ := split_front fronted
  obtain rfl := List.map_eq_nil_iff.1 nothing_left
  simp only [List.append_assoc, List.cons_append, List.nil_append]
  have read : conditional limit depth (front ++ closing :: rest) =
      answer limit depth d e (closing :: rest) :=
    h depth front _ tokens (stops_of_punct is_closing rfl)
  rw [reader, primary, peek_cons, is_opening]
  dsimp only
  rw [advance_cons (by rw [is_opening]; exact Token.noConfusion), read]
  refine answer_bind id fun fits => ?_
  dsimp only
  rw [expect_cons is_closing, answer_of_fits fits]
  rfl

end Productions

/-- Completeness: the parsers answer every derivation as `answer` says. -/
theorem reads_of_derives {limit : Nat} (positive : 0 < limit) {P : Phrase} {d : Nat}
    {ts : List Token} {e : Expr} (h : Derives P d ts e) : ReadsSpine limit P d ts e := by
  induction h with
  | test h ih => exact reads_test ih.reads
  | choice test consequent alternate ih ih' ih'' => exact reads_choice ih.reads ih' ih''
  | operand h ih => exact reads_operand ih.reads
  | join left joins right ih ih' => exact reads_join ih joins ih'.reads
  | sign written h ih => exact reads_sign written ih
  | unsigned h ih => exact reads_unsigned ih (h.starts_unsigned (.inl rfl))
  | object h ih => exact reads_object ih
  | property object name ih => exact reads_property name ih
  | index object property ih ih' => exact reads_index ih ih'
  | number n =>
      refine reads_leaf positive (fun nested located rest is_number => ?_) rfl
      rw [primary, peek_cons, is_number]
      dsimp only
      rw [advance_cons (by rw [is_number]; nofun)]
  | string s =>
      refine reads_leaf positive (fun nested located rest is_string => ?_) rfl
      rw [primary, peek_cons, is_string]
      dsimp only
      rw [advance_cons (by rw [is_string]; nofun)]
  | name names =>
      refine reads_leaf positive (fun nested located rest is_name => ?_) ?_
      · rw [primary, peek_cons, is_name]
        dsimp only
        rw [advance_cons (by rw [is_name]; nofun), names_iff.1 names]
      · cases names <;> rfl
  | group h ih => exact reads_group ih

end Formwork.Expr.Parse
