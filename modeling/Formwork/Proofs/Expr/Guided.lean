import Formwork.Proofs.Expr.Sound

/-!
# How parsers end

The tokens that a parser takes and the next one determine whether it ends with a tree, at an
unexpected token, or too deep, independently of offsets and of later tokens. At an unexpected token,
the tokens taken start a phrase.
-/

namespace Formwork.Expr.Parse

open Grammar

inductive Ending where
  | read (parsed : Parsed)
  | stuck (expected : Expectation)
  | deep (limit : Nat)

def Ending.answer : Ending → List Located → Except ExpressionError (Parsed × List Located)
  | .read parsed, rest => .ok (parsed, rest)
  | .stuck expected, rest => .error (unexpected expected rest)
  | .deep limit, _ => .error (.tooDeep limit)

abbrev Phrases := List Token → Expr → Prop

def Phrases.Starts (L : Phrases) (s : List Token) : Prop := ∃ s' e, L (s ++ s') e

def Phrases.behind (L : Phrases) (s : List Token) : Phrases := fun s' e => L (s ++ s') e

@[simp] theorem Phrases.behind_apply (L : Phrases) (s s' : List Token) (e : Expr) :
    L.behind s s' e ↔ L (s ++ s') e := Iff.rfl

/-- The tokens taken form a phrase, or start one when the parser is stuck. -/
def Ending.Keeps (L : Phrases) (s : List Token) : Ending → Prop
  | .read parsed => L s parsed.tree
  | .stuck _ => L.Starts s
  | .deep _ => True

/-- Before a token `next`, the parser takes the tokens `s` and ends so, whatever follows. -/
def Settles (parser : Parser) (s : List Token) (next : Token) (ending : Ending) : Prop :=
  ∀ front rest, front.map (·.token) = s → (peek rest).token = next →
    parser (front ++ rest) = ending.answer rest

/-- On any tokens the parser settles on some beginning of them, which keeps to the phrases. -/
def Guided (L : Phrases) (parser : Parser) : Prop :=
  ∀ ts, ∃ front rest ending, ts = front ++ rest ∧
    Settles parser (front.map (·.token)) (peek rest).token ending ∧
    ending.Keeps L (front.map (·.token))

section Rules

variable {L L' : Phrases} {parser k : Parser} {s s' : List Token} {next : Token} {ending : Ending}

theorem token_peek_append (front rest : List Located) :
    (peek (front ++ rest)).token = (front.map (·.token)).head?.getD (peek rest).token := by
  cases front <;> rfl

theorem guided_ending (ending : Ending) (keeps : ending.Keeps L []) : Guided L ending.answer := by
  intro ts
  refine ⟨[], ts, ending, rfl, fun front rest nothing _ => ?_, keeps⟩
  obtain rfl := List.map_eq_nil_iff.1 nothing
  rfl

def finish (parsed : Parsed) : Parser := (Ending.read parsed).answer

theorem guided_finish {parsed : Parsed} (keeps : L [] parsed.tree) : Guided L (finish parsed) :=
  guided_ending _ keeps

theorem guided_stuck (expected : Expectation) (starts : L.Starts []) :
    Guided L fun ts => .error (unexpected expected ts) :=
  guided_ending (.stuck expected) starts

theorem guided_tooDeep (limit : Nat) : Guided L (tooDeep limit) :=
  guided_ending (.deep limit) trivial

theorem guided_mono (guided : Guided L parser) (imp : ∀ s e, L s e → L' s e) :
    Guided L' parser := by
  intro ts
  obtain ⟨front, rest, ending, split, settles, keeps⟩ := guided ts
  refine ⟨front, rest, ending, split, settles, ?_⟩
  cases ending with
  | read parsed => exact imp _ _ keeps
  | stuck expected =>
      obtain ⟨s', e, phrase⟩ := keeps
      exact ⟨s', e, imp _ _ phrase⟩
  | deep limit => trivial

/-- How a parser continues on the next token `t`: it takes the token or not, and the rest is
guided. -/
inductive Goes (L : Phrases) (parser : Parser) (t : Token) : Prop where
  | takes (k : Parser) (not_end : t ≠ .eof)
      (step : ∀ located rest, located.token = t → parser (located :: rest) = k rest)
      (guided : Guided (L.behind [t]) k)
  | stays (k : Parser) (step : ∀ rest, (peek rest).token = t → parser rest = k rest)
      (guided : Guided L k)

theorem guided_of_goes (goes : ∀ t, Goes L parser t) : Guided L parser := by
  intro ts
  rcases goes (peek ts).token with ⟨k, not_end, step, guided⟩ | ⟨k, step, guided⟩
  · have split := eq_cons_advance ts not_end
    obtain ⟨front, rest, ending, taken, settles, keeps⟩ := guided (advance ts)
    refine ⟨peek ts :: front, rest, ending, ?_, ?_, ?_⟩
    · rw [List.cons_append, ← taken]
      exact split
    · intro whole rest' tokens ahead
      obtain ⟨t, front', rfl, is_front, tokens'⟩ := List.map_eq_cons_iff.1 tokens
      rw [List.cons_append, step t _ is_front]
      exact settles front' rest' tokens' ahead
    · cases ending with
      | read parsed => exact keeps
      | stuck expected =>
          obtain ⟨s', e, phrase⟩ := keeps
          exact ⟨s', e, phrase⟩
      | deep limit => trivial
  · obtain ⟨front, rest, ending, split, settles, keeps⟩ := guided ts
    refine ⟨front, rest, ending, split, fun front' rest' tokens ahead => ?_, keeps⟩
    rw [step _ ?_]
    · exact settles front' rest' tokens ahead
    · rw [split, token_peek_append, token_peek_append, tokens, ahead]

def andThen (first : Parser) (next : Parsed → Parser) : Parser := fun ts =>
  first ts >>= fun (parsed, rest) => next parsed rest

/-- Sequencing preserves guidance when every phrase of the first parser starts one of the whole. -/
theorem guided_andThen {k : Parsed → Parser} (first : Guided L' parser)
    (next : ∀ s parsed, L' s parsed.tree → Guided (L.behind s) (k parsed))
    (starts : ∀ s e, L' s e → L.Starts s) :
    Guided L (andThen parser k) := by
  intro ts
  obtain ⟨front, rest, ending, rfl, settles, keeps⟩ := first ts
  cases ending with
  | stuck expected =>
      refine ⟨front, rest, .stuck expected, rfl, fun front' rest' tokens ahead => ?_, ?_⟩
      · simp only [andThen, settles front' rest' tokens ahead]
        rfl
      · obtain ⟨s', e, phrase⟩ := keeps
        obtain ⟨s'', e', whole⟩ := starts _ e phrase
        exact ⟨s' ++ s'', e', by rw [← List.append_assoc]; exact whole⟩
  | deep limit =>
      refine ⟨front, rest, .deep limit, rfl, fun front' rest' tokens ahead => ?_, trivial⟩
      simp only [andThen, settles front' rest' tokens ahead]
      rfl
  | read parsed =>
      obtain ⟨front', rest', ending', rfl, settles', keeps'⟩ := next _ parsed keeps rest
      refine ⟨front ++ front', rest', ending', (List.append_assoc _ _ _).symm, ?_, ?_⟩
      · intro whole behind tokens ahead
        rw [List.map_append] at tokens
        obtain ⟨left, right, rfl, tokens, tokens'⟩ := List.map_eq_append_iff.1 tokens
        have ahead' : (peek (right ++ behind)).token = (peek (front' ++ rest')).token := by
          rw [token_peek_append, token_peek_append, tokens', ahead]
        simp only [List.append_assoc, andThen, settles left (right ++ behind) tokens ahead']
        exact settles' right behind tokens' ahead
      · rw [List.map_append]
        cases ending' with
        | read parsed' => exact keeps'
        | stuck expected =>
            obtain ⟨s', e, phrase⟩ := keeps'
            exact ⟨s', e, by rw [List.append_assoc]; exact phrase⟩
        | deep limit => trivial

theorem guided_eat {p : Punct} {absent present : Parser} (without : Guided L absent)
    (behind : Guided (L.behind [.punct p]) present) :
    Guided L fun ts => match eat? p ts with
      | none => absent ts
      | some rest => present rest := by
  refine guided_of_goes fun t => ?_
  by_cases is_punct : t = .punct p
  · subst is_punct
    refine .takes present nofun (fun located rest is_front => ?_) behind
    rw [eat?_cons is_front]
  · refine .stays absent (fun rest is_front => ?_) without
    rw [eat?_eq_none.2 (is_front ▸ is_punct)]

theorem guided_expect {p : Punct} {k : Parser} (starts : L.Starts [])
    (behind : Guided (L.behind [.punct p]) k) :
    Guided L fun ts => expect p ts >>= k := by
  have eaten := guided_eat (guided_stuck (.punct p) starts) behind
  have same : (fun ts => expect p ts >>= k) = fun ts => match eat? p ts with
      | none => .error (unexpected (.punct p) ts)
      | some rest => k rest := by
    funext ts
    unfold expect
    cases eat? p ts <;> rfl
  rw [same]
  exact eaten

def node (limit : Nat) (tree : Expr) (below : Nat) (next : Parsed → Parser) : Parser := fun ts =>
  Parsed.parent limit tree below >>= fun parsed => next parsed ts

theorem guided_node {limit below : Nat} {tree : Expr} {k : Parsed → Parser}
    (next : ∀ parsed, parsed.tree = tree → Guided L (k parsed)) :
    Guided L (node limit tree below k) := by
  unfold node Parsed.parent
  split
  · exact guided_tooDeep limit
  · exact next _ rfl

end Rules

section Combinators

def phrases (P : Phrase) : Phrases := fun s e => ∃ d, Derives P d s e

@[simp] theorem phrases_apply (P : Phrase) (s : List Token) (e : Expr) :
    phrases P s e ↔ ∃ d, Derives P d s e := Iff.rfl

variable {limit : Nat}

theorem derives_name (P : Phrase) : ∃ d e, Derives P d [.ident ""] e := by
  have name : Derives .primary 0 [.ident ""] (.variable "") := .name (.ordinary (by decide))
  have signed := Derives.unsigned (.object name)
  have level (l : Level) : Derives (.level l) 0 [.ident ""] (.variable "") :=
    level_induction (motive := fun P => Derives P 0 [.ident ""] (.variable "")) signed
      (fun _ => .operand) l
  cases P with
  | conditional => exact ⟨_, _, .test (level .or)⟩
  | level l => exact ⟨_, _, level l⟩
  | signed => exact ⟨_, _, signed⟩
  | member => exact ⟨_, _, .object name⟩
  | primary => exact ⟨_, _, name⟩

def choice (limit : Nat) (branch : Parser) (test : Parsed) : Parser := fun ts =>
  match eat? .question ts with
  | none => finish test ts
  | some rest => andThen branch (fun consequent ts =>
      expect .colon ts >>= andThen branch fun alternate =>
        node limit (.conditional test.tree consequent.tree alternate.tree)
          (max test.height (max consequent.height alternate.height)) finish) rest

theorem conditionalOf_eq (test branch : Parser) :
    conditionalOf limit test branch = andThen test (choice limit branch) := rfl

theorem guided_conditionalOf {test branch : Parser} (guided : Guided (phrases (.level .or)) test)
    (guided_branch : Guided (phrases .conditional) branch) :
    Guided (phrases .conditional) (conditionalOf limit test branch) := by
  obtain ⟨d₀, e₀, some_branch⟩ := derives_name .conditional
  rw [conditionalOf_eq]
  refine guided_andThen guided (fun s test tested => ?_) fun s e tested => ?_
  · obtain ⟨d, derived⟩ := tested
    refine guided_eat (guided_finish ⟨_, by simpa using Derives.test derived⟩) ?_
    refine guided_andThen guided_branch (fun s' consequent read => ?_) fun s' e' read => ?_
    · obtain ⟨d', derived'⟩ := read
      refine guided_expect ⟨_, _, _, by simpa using .choice derived derived' some_branch⟩ ?_
      refine guided_andThen guided_branch (fun s'' alternate read => ?_) fun s'' e'' read => ?_
      · obtain ⟨d'', derived''⟩ := read
        refine guided_node fun parsed tree => guided_finish ?_
        rw [tree]
        exact ⟨_, by simpa using Derives.choice derived derived' derived''⟩
      · obtain ⟨d'', derived''⟩ := read
        exact ⟨[], _, _, by simpa using Derives.choice derived derived' derived''⟩
    · obtain ⟨d', derived'⟩ := read
      exact ⟨_, _, _, by simpa using .choice derived derived' some_branch⟩
  · obtain ⟨d, derived⟩ := tested
    exact ⟨[], e, _, by simpa using Derives.test derived⟩

theorem guided_operator {L : Phrases} {l : Level} {absent : Parser}
    {present : (Expr → Expr → Expr) → Parser} (without : Guided L absent)
    (behind : ∀ p f, Joins l p f → Guided (L.behind [.punct p]) (present f)) :
    Guided L fun ts => match l.operator? ts with
      | none => absent ts
      | some (join, rest) => present join rest := by
  refine guided_of_goes fun t => ?_
  by_cases joined : ∃ p f, t = .punct p ∧ Joins l p f
  · obtain ⟨p, f, rfl, joins⟩ := joined
    refine .takes (present f) nofun (fun located rest is_front => ?_) (behind p f joins)
    rw [operator?_cons is_front joins]
  · refine .stays absent (fun rest is_front => ?_) without
    rw [operator?_eq_none fun p front => ?_]
    cases joins : l.join? p with
    | none => rfl
    | some f => exact (joined ⟨p, f, is_front ▸ front, joins_iff.2 joins⟩).elim

def joinNext (limit : Nat) (operand : Parser) (l : Level) (left : Parsed)
    (join : Expr → Expr → Expr) : Nat → Parser
  | 0 => tooDeep limit
  | steps + 1 => andThen operand fun right =>
      node limit (join left.tree right.tree) (max left.height right.height)
        (chain limit operand l steps)

theorem chain_eq (operand : Parser) (l : Level) (steps : Nat) (left : Parsed) :
    chain limit operand l steps left = fun ts => match l.operator? ts with
      | none => finish left ts
      | some (join, rest) => joinNext limit operand l left join steps rest := by
  funext ts
  unfold chain
  cases l.operator? ts with
  | none => rfl
  | some found =>
      cases steps with
      | zero => rfl
      | succ steps =>
          obtain ⟨join, rest⟩ := found
          simp only [joinNext, andThen, node]
          cases operand rest with
          | error e => rfl
          | ok read =>
              obtain ⟨right, behind⟩ := read
              show _ = Parsed.parent _ _ _ >>= _
              simp only
              cases Parsed.parent limit (join left.tree right.tree)
                (max left.height right.height) <;> rfl

theorem guided_chain {operand : Parser} {l : Level}
    (guided : Guided (phrases (Grammar.operand l)) operand) (steps : Nat) {left : Parsed}
    {s : List Token} (derived : phrases (.level l) s left.tree) :
    Guided ((phrases (.level l)).behind s) (chain limit operand l steps left) := by
  induction steps generalizing left s with
  | zero =>
      rw [chain_eq]
      exact guided_operator (guided_finish (by simpa using derived)) fun p f joins =>
        guided_tooDeep limit
  | succ steps ih =>
      rw [chain_eq]
      refine guided_operator (guided_finish (by simpa using derived)) fun p f joins => ?_
      obtain ⟨d, derived⟩ := derived
      unfold joinNext
      refine guided_andThen guided (fun s' right read => ?_) fun s' e' read => ?_
      · obtain ⟨d', derived'⟩ := read
        have joined : phrases (.level l) (s ++ .punct p :: s') (f left.tree right.tree) :=
          ⟨_, .join derived joins derived'⟩
        refine guided_node fun parsed tree => ?_
        rw [← tree] at joined
        refine guided_mono (ih joined) fun s'' e'' phrase => ?_
        simpa using phrase
      · obtain ⟨d', derived'⟩ := read
        exact ⟨[], _, _, by simpa using Derives.join derived joins derived'⟩

theorem guided_level {depth : Nat} {l : Level}
    (guided : Guided (phrases (operand l)) (reader limit depth (operand l))) :
    Guided (phrases (.level l)) (reader limit depth (.level l)) := by
  have split : reader limit depth (.level l) = andThen (reader limit depth (operand l))
      (chain limit (reader limit depth (operand l)) l limit) := funext (reader_level l)
  rw [split]
  refine guided_andThen guided (fun s left read => ?_) fun s e read => ?_
  · obtain ⟨d, derived⟩ := read
    exact guided_chain guided limit ⟨d, .operand derived⟩
  · obtain ⟨d, derived⟩ := read
    exact ⟨[], e, _, by simpa using Derives.operand derived⟩

def group (nested : Parser) : Parser :=
  andThen nested fun inner ts => expect .closeParen ts >>= finish inner

theorem guided_primary {nested : Parser} (guided : Guided (phrases .conditional) nested) :
    Guided (phrases .primary) (primary nested) := by
  have leaf {t : Token} {e : Expr} (not_end : t ≠ .eof) (derived : Derives .primary 0 [t] e)
      (step : ∀ located rest, located.token = t →
        primary nested (located :: rest) = .ok (.leaf e, advance (located :: rest))) :
      Goes (phrases .primary) (primary nested) t := by
    refine .takes (finish (.leaf e)) not_end (fun located rest is_front => ?_)
      (guided_finish ⟨0, derived⟩)
    rw [step located rest is_front, advance_cons (is_front ▸ not_end)]
    rfl
  have unknown {t : Token} (step : ∀ rest, (peek rest).token = t →
      primary nested rest = .error (unexpected .expression rest)) :
      Goes (phrases .primary) (primary nested) t := by
    obtain ⟨d, e, derived⟩ := derives_name .primary
    exact .stays _ step (guided_stuck .expression ⟨_, e, d, derived⟩)
  refine guided_of_goes fun t => ?_
  cases t with
  | number n =>
      refine leaf nofun (.number n) fun located rest is_front => ?_
      rw [primary, peek_cons, is_front]
  | string s =>
      refine leaf nofun (.string s) fun located rest is_front => ?_
      rw [primary, peek_cons, is_front]
  | ident name =>
      refine leaf nofun (.name (names_iff.2 rfl)) fun located rest is_front => ?_
      rw [primary, peek_cons, is_front]
  | punct p =>
      by_cases opening : p = .openParen
      · subst opening
        refine .takes (group nested) nofun (fun located rest is_front => ?_) ?_
        · rw [primary, peek_cons, is_front, advance_cons (by rw [is_front]; nofun)]
          rfl
        · refine guided_andThen guided (fun s inner read => ?_) fun s e read => ?_
          · obtain ⟨d, derived⟩ := read
            exact guided_expect ⟨_, _, _, by simpa using Derives.group derived⟩
              (guided_finish ⟨d, by simpa using Derives.group derived⟩)
          · obtain ⟨d, derived⟩ := read
            exact ⟨_, _, _, by simpa using Derives.group derived⟩
      · refine unknown fun rest is_front => ?_
        rw [primary, is_front]
        cases p with
        | openParen => exact (opening rfl).elim
        | _ => rfl
  | eof =>
      refine unknown fun rest is_front => ?_
      rw [primary, is_front]

def accessNext (limit : Nat) (nested : Parser) : Nat → Parsed → Parser
  | 0, _ => tooDeep limit
  | steps + 1, parsed => accesses limit nested steps parsed

def namedAccess (limit : Nat) (nested : Parser) (steps : Nat) (object : Parsed) : Parser :=
  fun ts => match (peek ts).token with
    | .ident name => node limit (.member object.tree (.literal (.string name)))
        (max object.height 1) (accessNext limit nested steps) (advance ts)
    | _ => .error (unexpected .propertyName ts)

def indexAccess (limit : Nat) (nested : Parser) (steps : Nat) (object : Parsed) : Parser :=
  andThen nested fun property ts => expect .closeBracket ts >>=
    node limit (.member object.tree property.tree) (max object.height property.height)
      (accessNext limit nested steps)

theorem accesses_eq_bind (nested : Parser) (steps : Nat) (object : Parsed) (ts : List Located) :
    accesses limit nested steps object ts = access limit nested object ts >>= fun
      | none => finish object ts
      | some (parsed, rest) => accessNext limit nested steps parsed rest := by
  unfold accesses
  cases access limit nested object ts with
  | error e => rfl
  | ok found =>
      cases found with
      | none => rfl
      | some member => cases steps <;> rfl

theorem accesses_eq (nested : Parser) (steps : Nat) (object : Parsed) :
    accesses limit nested steps object = fun ts => match eat? .dot ts with
      | none => (match eat? .openBracket ts with
        | none => finish object ts
        | some rest => indexAccess limit nested steps object rest)
      | some rest => namedAccess limit nested steps object rest := by
  funext ts
  rw [accesses_eq_bind, access]
  cases eat? .dot ts with
  | some rest =>
      simp only [namedAccess, node]
      cases (peek rest).token with
      | ident name => simp only [bind_assoc, pure_bind]
      | _ => rfl
  | none =>
      cases eat? .openBracket ts with
      | none => rfl
      | some rest =>
          simp only [indexAccess, andThen, bind_assoc, pure_bind]
          rfl

theorem guided_namedAccess {nested : Parser} {steps : Nat} {object : Parsed} {L : Phrases}
    (starts : L.Starts [])
    (next : ∀ name parsed, parsed.tree = .member object.tree (.literal (.string name)) →
      Guided (L.behind [.ident name]) (accessNext limit nested steps parsed)) :
    Guided L (namedAccess limit nested steps object) := by
  refine guided_of_goes fun t => ?_
  cases t with
  | ident name =>
      refine .takes (node limit (.member object.tree (.literal (.string name)))
        (max object.height 1) (accessNext limit nested steps)) nofun
        (fun located rest is_front => ?_) (guided_node (next name))
      rw [namedAccess, peek_cons, is_front, advance_cons (by rw [is_front]; nofun)]
  | number n | string s | punct p | eof =>
      refine .stays (Ending.stuck .propertyName).answer (fun rest is_front => ?_)
        (guided_ending _ starts)
      rw [namedAccess, is_front]
      rfl

theorem guided_access {nested : Parser} (guided : Guided (phrases .conditional) nested)
    {steps : Nat} {object : Parsed} {s : List Token} (derived : phrases .member s object.tree)
    (next : ∀ s' parsed, phrases .member s' parsed.tree →
      Guided ((phrases .member).behind s') (accessNext limit nested steps parsed)) :
    Guided ((phrases .member).behind s) (accesses limit nested steps object) := by
  have here : (phrases .member).behind s [] object.tree := by simpa using derived
  obtain ⟨d, derived⟩ := derived
  rw [accesses_eq]
  refine guided_eat (guided_eat (guided_finish here) ?_) ?_
  · refine guided_andThen guided (fun s' property read => ?_) fun s' e read => ?_
    · obtain ⟨d', derived'⟩ := read
      have whole := Derives.index derived derived'
      refine guided_expect ⟨[.punct .closeBracket], _, _, by simpa using whole⟩ ?_
      refine guided_node fun parsed tree => ?_
      refine guided_mono (next _ parsed ⟨_, tree ▸ whole⟩) fun s'' e phrase => ?_
      simpa using phrase
    · obtain ⟨d', derived'⟩ := read
      exact ⟨[.punct .closeBracket], _, _, by simpa using Derives.index derived derived'⟩
  · refine guided_namedAccess ?_ fun name parsed tree => ?_
    · exact ⟨[.ident ""], _, _, by simpa using Derives.property derived ""⟩
    · have whole := Derives.property derived name
      refine guided_mono (next _ parsed ⟨_, tree ▸ whole⟩) fun s' e phrase => ?_
      simpa using phrase

theorem guided_accesses {nested : Parser} (guided : Guided (phrases .conditional) nested)
    (steps : Nat) {object : Parsed} {s : List Token} (derived : phrases .member s object.tree) :
    Guided ((phrases .member).behind s) (accesses limit nested steps object) := by
  induction steps generalizing object s with
  | zero => exact guided_access guided derived fun s' parsed member => guided_tooDeep limit
  | succ steps ih => exact guided_access guided derived fun s' parsed member => ih member

theorem guided_memberOf {nested : Parser} (guided : Guided (phrases .conditional) nested) :
    Guided (phrases .member) (memberOf limit nested) := by
  have split : memberOf limit nested =
      andThen (primary nested) (accesses limit nested limit) := rfl
  rw [split]
  refine guided_andThen (guided_primary guided) (fun s object read => ?_) fun s e read => ?_
  · obtain ⟨d, derived⟩ := read
    exact guided_accesses guided limit ⟨d, .object derived⟩
  · obtain ⟨d, derived⟩ := read
    exact ⟨[], e, _, by simpa using Derives.object derived⟩

theorem guided_signed {deeper nested : Parser} (guided_deeper : Guided (phrases .signed) deeper)
    (guided : Guided (phrases .conditional) nested) :
    Guided (phrases .signed) (signed limit deeper nested) := by
  refine guided_of_goes fun t => ?_
  by_cases sign : ∃ op p, t = .punct p ∧ p.symbol = UnaryOp.symbol op
  · obtain ⟨op, p, rfl, written⟩ := sign
    refine .takes (andThen deeper fun operand =>
      node limit (.unary op operand.tree) operand.height finish) nofun
      (fun located rest is_front => ?_) ?_
    · rw [signed, signAt?_cons is_front written]
      dsimp only
      rw [advance_cons (by rw [is_front]; nofun)]
      rfl
    · refine guided_andThen guided_deeper (fun s operand read => ?_) fun s e read => ?_
      · obtain ⟨d, derived⟩ := read
        refine guided_node fun parsed tree => guided_finish ?_
        rw [tree]
        exact ⟨_, by simpa using Derives.sign written derived⟩
      · obtain ⟨d, derived⟩ := read
        exact ⟨[], _, _, by simpa using Derives.sign written derived⟩
  · refine .stays (memberOf limit nested) (fun rest is_front => ?_)
      (guided_mono (guided_memberOf guided) ?_)
    · have no_sign : signAt? rest = none := by
        cases found : signAt? rest with
        | none => rfl
        | some op =>
            obtain ⟨t', p, behind, rfl, is_punct, written⟩ := exists_of_signAt? found
            exact (sign ⟨op, p, is_front ▸ is_punct, written⟩).elim
      rw [signed, no_sign]
    · rintro s e ⟨d, derived⟩
      exact ⟨d, .unsigned derived⟩

end Combinators

theorem guided_levels {limit depth : Nat}
    (guided : Guided (phrases .signed) (unary limit depth)) (l : Level) :
    Guided (phrases (.level l)) (reader limit depth (.level l)) :=
  level_induction (motive := fun P => Guided (phrases P) (reader limit depth P)) guided
    (fun _ guided_operand => guided_level guided_operand) l

/-- With any limits, the parsers of the two nested phrases are guided. -/
theorem guided_nested (limit depth : Nat) :
    Guided (phrases .conditional) (conditional limit depth) ∧
      Guided (phrases .signed) (unary limit depth) := by
  induction depth with
  | zero =>
      have guided_conditional : Guided (phrases .conditional) (conditional limit 0) := by
        rw [conditional_zero]
        exact guided_tooDeep limit
      refine ⟨guided_conditional, ?_⟩
      rw [unary_eq]
      exact guided_signed (guided_tooDeep limit) guided_conditional
  | succ depth ih =>
      obtain ⟨guided_conditional, guided_unary⟩ := ih
      have guided_next : Guided (phrases .conditional) (conditional limit (depth + 1)) := by
        rw [conditional_succ]
        exact guided_conditionalOf (guided_levels guided_unary .or) guided_conditional
      refine ⟨guided_next, ?_⟩
      rw [unary_eq]
      exact guided_signed guided_unary guided_next

end Formwork.Expr.Parse
