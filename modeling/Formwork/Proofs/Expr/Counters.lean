import Formwork.Proofs.Expr.Guided
import Formwork.Proofs.Expr.Tiling
import Formwork.Proofs.Expr.Walker

/-!
# The counters of the parser

Refinement of the parser with a cursor and a depth counter to the parser on token lists. The parser
with counters terminates with the same answer; on success it restores the depth, advances, and
returns the height of the tree.
-/

namespace Formwork.Expr

def Ended (tokens : List Located) : Prop :=
  ∃ front last, tokens = front ++ [last] ∧ last.token = .eof ∧ ∀ t ∈ front, t.token ≠ .eof

theorem ended_of_tokenize {source : String} {tokens : List Located}
    (scanned : Scan.tokenize source = .ok tokens) : Ended tokens := by
  obtain ⟨lead, tiles, -, -, settled, rfl⟩ := Scan.exists_settled_of_tokenize scanned
  have ne_eof (tile : Scan.Tile) (mem : tile ∈ tiles) : tile.token ≠ .eof := by
    obtain ⟨-, after, taken⟩ := settled.mem mem
    exact taken.ne_eof
  obtain ⟨front, split, others⟩ := Scan.exists_located_concat tiles ne_eof (Scan.utf8Length lead)
  exact ⟨front, _, split, rfl, others⟩

/-- The recorded height is that of the tree and within the limit. -/
structure Parsed.Measured (parsed : Parsed) : Prop where
  exact : parsed.height = parsed.tree.height
  low : parsed.height ≤ maxDepth

namespace Parsed

theorem measured_leaf {e : Expr} (one : e.height = 1) : (leaf e).Measured := by
  refine ⟨one.symm, ?_⟩
  show 1 ≤ maxDepth
  decide

theorem Measured.steps {parsed : Parsed} (measured : parsed.Measured) :
    maxDepth < parsed.height + maxDepth := by
  have high := Grammar.one_le_height parsed.tree
  have exact := measured.exact
  omega

end Parsed

/-- The cursor is at a token, and its depth and peak are within the limit. -/
structure Cursor.Ready (tokens : List Located) (c : Cursor) : Prop where
  inside : c.position < tokens.length
  covered : c.depth ≤ c.peak
  shallow : c.peak ≤ maxDepth

namespace Walker

open Parse (Level reader)
open Grammar

section Places

variable {tokens : List Located} {c : Cursor}

theorem ahead_eq (inside : c.position < tokens.length) :
    ahead tokens c = Parse.peek (tokens.drop c.position) := by
  have place : min c.position (tokens.length - 1) = c.position := by omega
  rw [ahead, place]

theorem drop_eq_cons (inside : c.position < tokens.length) :
    tokens.drop c.position = ahead tokens c :: tokens.drop c.next.position := by
  have split := List.drop_eq_getElem_cons inside
  rw [ahead_eq inside, split]
  rfl

theorem ready_next (ended : Ended tokens) (ready : c.Ready tokens)
    (not_end : (ahead tokens c).token ≠ .eof) : c.next.Ready tokens := by
  refine ⟨?_, ready.covered, ready.shallow⟩
  obtain ⟨front, last, rfl, is_end, -⟩ := ended
  have inside := ready.inside
  rw [List.length_append, List.length_singleton] at inside ⊢
  rcases Nat.lt_or_eq_of_le (Nat.le_of_lt_succ inside) with before | place
  · exact Nat.succ_lt_succ before
  · have last_ahead : ahead (front ++ [last]) c = last := by
      rw [ahead_eq ready.inside, place, List.drop_left]
      rfl
    rw [last_ahead] at not_end
    exact absurd is_end not_end

end Places

/-- The walker's result agrees with the parser's answer, and the depth is restored. -/
inductive Agrees (tokens : List Located) (depth : Nat) :
    Except ExpressionError (Parsed × List Located) → Except ExpressionError Parsed → Cursor → Prop
  | read {parsed : Parsed} {after : Cursor} (ready : after.Ready tokens)
      (restored : after.depth = depth) (measured : parsed.Measured) :
      Agrees tokens depth (.ok (parsed, tokens.drop after.position)) (.ok parsed) after
  | failed {error : ExpressionError} {after : Cursor}
      (shallow : after.peak ≤ maxDepth ∨
        after.peak = maxDepth + 1 ∧ error = .tooDeep maxDepth) :
      Agrees tokens depth (.error error) (.error error) after

/-- The walk from `c` terminates and agrees with the answer. -/
def Ends (tokens : List Located) (depth : Nat) (w : Walker Parsed) (c : Cursor)
    (answer : Except ExpressionError (Parsed × List Located)) : Prop :=
  ∃ result after, w.walk c = some (result, after) ∧ Agrees tokens depth answer result after

/-- From every cursor of this depth the walk agrees with the parser. -/
def Follows (tokens : List Located) (depth : Nat) (w : Walker Parsed) (parser : Parser) : Prop :=
  ∀ c : Cursor, c.Ready tokens → c.depth = depth →
    Ends tokens depth w c (parser (tokens.drop c.position))

section Rules

variable {tokens : List Located} {depth : Nat} {w : Walker Parsed} {parser : Parser}

theorem ends_congr {w' : Walker Parsed} {c c' : Cursor}
    {answer : Except ExpressionError (Parsed × List Located)} (same : w.walk c = w'.walk c')
    (ends : Ends tokens depth w' c' answer) : Ends tokens depth w c answer := by
  obtain ⟨result, after, walked, agrees⟩ := ends
  exact ⟨result, after, same.trans walked, agrees⟩

theorem ends_failed {c after : Cursor} {error : ExpressionError}
    (walked : w.walk c = some (.error error, after)) (shallow : after.peak ≤ maxDepth) :
    Ends tokens depth w c (.error error) :=
  ⟨_, _, walked, .failed (.inl shallow)⟩

theorem follows_finish {parsed : Parsed} (measured : parsed.Measured) :
    Follows tokens depth (pure parsed) (Parse.finish parsed) := by
  intro c ready here
  exact ⟨_, _, walk_pure parsed c, .read ready here measured⟩

theorem follows_andThen {k : Parsed → Walker Parsed} {next : Parsed → Parser}
    (first : Follows tokens depth w parser)
    (behind : ∀ parsed, parsed.Measured → Follows tokens depth (k parsed) (next parsed)) :
    Follows tokens depth (w >>= k) (Parse.andThen parser next) := by
  intro c ready here
  obtain ⟨result, middle, walked, agrees⟩ := first c ready here
  unfold Parse.andThen
  generalize parser (tokens.drop c.position) = answer at agrees
  cases agrees with
  | failed shallow => exact ⟨_, _, walk_bind_error walked, .failed shallow⟩
  | read ready' restored measured =>
      exact ends_congr (walk_bind_ok walked) (behind _ measured middle ready' restored)

theorem follows_parent {tree : Expr} {below : Nat} {k : Parsed → Walker Parsed}
    {next : Parsed → Parser} (exact : 1 + below = tree.height)
    (behind : Parsed.Measured ⟨tree, 1 + below⟩ →
      Follows tokens depth (k ⟨tree, 1 + below⟩) (next ⟨tree, 1 + below⟩)) :
    Follows tokens depth (parent tree below >>= k) (Parse.node maxDepth tree below next) := by
  intro c ready here
  have made := walk_parent tree below c
  unfold Parse.node
  unfold Parsed.parent at made ⊢
  split at made
  · next high =>
    rw [if_pos high]
    exact ends_failed (walk_bind_error made) ready.shallow
  · next low =>
    rw [if_neg low]
    exact ends_congr (walk_bind_ok made) (behind ⟨exact, Nat.le_of_not_lt low⟩ c ready here)

theorem follows_eat (ended : Ended tokens) {p : Punct} {present absent : Walker Parsed}
    {present' absent' : Parser} (with_it : Follows tokens depth present present')
    (without : Follows tokens depth absent absent') :
    Follows tokens depth (eat tokens p >>= fun eaten => if eaten then present else absent)
      fun ts => match Parse.eat? p ts with
        | none => absent' ts
        | some rest => present' rest := by
  intro c ready here
  by_cases front : (ahead tokens c).token = .punct p
  · have ready' := ready_next ended ready (by rw [front]; nofun)
    refine ends_congr (walk_bind_ok (walk_eat_present tokens front)) ?_
    simp only [drop_eq_cons ready.inside, Parse.eat?_cons front]
    exact with_it c.next ready' here
  · refine ends_congr (walk_bind_ok (walk_eat_absent tokens front)) ?_
    simp only [Parse.eat?_eq_none.2 (ahead_eq ready.inside ▸ front)]
    exact without c ready here

theorem follows_expect (ended : Ended tokens) {p : Punct} {k : Unit → Walker Parsed}
    {next : Parser} (behind : Follows tokens depth (k ()) next) :
    Follows tokens depth (expect tokens p >>= k) fun ts => Parse.expect p ts >>= next := by
  intro c ready here
  by_cases front : (ahead tokens c).token = .punct p
  · have ready' := ready_next ended ready (by rw [front]; nofun)
    have taken : (expect tokens p).walk c = some (.ok (), c.next) :=
      walk_bind_ok (walk_eat_present tokens front)
    refine ends_congr (walk_bind_ok taken) ?_
    simp only [drop_eq_cons ready.inside, Parse.expect_cons front]
    exact behind c.next ready' here
  · have missed : (expect tokens p).walk c =
        some (.error (unexpected (.punct p) (ahead tokens c)), c) :=
      walk_bind_ok (walk_eat_absent tokens front)
    rw [ahead_eq ready.inside] at front missed
    simp only [Parse.expect, Parse.eat?_eq_none.2 front]
    exact ends_failed (walk_bind_error missed) ready.shallow

theorem follows_operator (ended : Ended tokens) {l : Level} {absent : Walker Parsed}
    {present : (Expr → Expr → Expr) → Walker Parsed} {absent' : Parser}
    {present' : (Expr → Expr → Expr) → Parser} (without : Follows tokens depth absent absent')
    (behind : ∀ p join, Joins l p join → Follows tokens depth (present join) (present' join)) :
    Follows tokens depth
      (operator? tokens l >>= fun
        | none => absent
        | some join => advance tokens >>= fun _ => present join)
      fun ts => match l.operator? ts with
        | none => absent' ts
        | some (join, rest) => present' join rest := by
  intro c ready here
  by_cases joined : ∃ p join, (ahead tokens c).token = .punct p ∧ Joins l p join
  · obtain ⟨p, join, front, joins⟩ := joined
    have not_end : (ahead tokens c).token ≠ .eof := by
      rw [front]
      nofun
    have seen := walk_operator?_some tokens front (joins_iff.1 joins)
    have taken := walk_advance tokens c
    rw [if_neg not_end] at taken
    refine ends_congr ((walk_bind_ok seen).trans (walk_bind_ok taken)) ?_
    simp only [drop_eq_cons ready.inside, Parse.operator?_cons front joins]
    exact behind p join joins c.next (ready_next ended ready not_end) here
  · have none_joins (p : Punct) (front : (ahead tokens c).token = .punct p) :
        l.join? p = none := by
      cases joins : l.join? p with
      | none => rfl
      | some join => exact absurd ⟨p, join, front, joins_iff.2 joins⟩ joined
    refine ends_congr (walk_bind_ok (walk_operator?_none tokens none_joins)) ?_
    rw [ahead_eq ready.inside] at none_joins
    simp only [Parse.operator?_eq_none none_joins]
    exact without c ready here

/-- The walker and the parser take the same step on the token `t`: both continue, or both fail. -/
inductive Proceeds (tokens : List Located) (depth : Nat) (w : Walker Parsed) (parser : Parser)
    (t : Located) : Prop
  | on (next : Parser) (not_end : t.token ≠ .eof) (step : ∀ rest, parser (t :: rest) = next rest)
      (behind : Follows tokens depth w next)
  | stuck (error : ExpressionError) (stops : w = throw error)
      (step : ∀ rest, parser (t :: rest) = .error error)

theorem follows_advance (ended : Ended tokens) {k : Located → Walker Parsed}
    (proceeds : ∀ t, Proceeds tokens depth (k t) parser t) :
    Follows tokens depth (advance tokens >>= k) parser := by
  intro c ready here
  have taken := walk_bind_ok (k := k) (walk_advance tokens c)
  rw [drop_eq_cons ready.inside]
  rcases proceeds (ahead tokens c) with ⟨next, not_end, step, behind⟩ | ⟨error, stops, step⟩
  · rw [if_neg not_end] at taken
    rw [step]
    exact ends_congr taken (behind c.next (ready_next ended ready not_end) here)
  · rw [stops, walk_throw] at taken
    rw [step]
    refine ends_failed taken ?_
    split <;> exact ready.shallow

theorem follows_skip (ended : Ended tokens) (behind : Follows tokens depth w parser) :
    Follows tokens depth (advance tokens >>= fun _ => w) fun ts => parser (Parse.advance ts) := by
  intro c ready here
  refine ends_congr (walk_bind_ok (walk_advance tokens c)) ?_
  by_cases ends : (ahead tokens c).token = .eof
  · have stays : Parse.advance (tokens.drop c.position) = tokens.drop c.position := by
      rw [drop_eq_cons ready.inside, Parse.advance.eq_2, if_pos ends]
    simp only [stays, if_pos ends]
    exact behind c ready here
  · simp only [drop_eq_cons ready.inside, Parse.advance_cons ends, if_neg ends]
    exact behind c.next (ready_next ended ready ends) here

theorem follows_sign {k : Option UnaryOp → Walker Parsed} {next : Option UnaryOp → Parser}
    (goes : ∀ sign, Follows tokens depth (k sign) (next sign)) :
    Follows tokens depth (sign? tokens >>= k) fun ts => next (Parse.signAt? ts) ts := by
  intro c ready here
  have seen := walk_sign? tokens c (tokens.drop c.next.position)
  rw [← drop_eq_cons ready.inside] at seen
  exact ends_congr (walk_bind_ok seen) (goes _ c ready here)

def counted (w : Walker Parsed) : Walker Parsed := do
  enter
  let parsed ← w
  leave
  return parsed

theorem follows_counted (room : depth < maxDepth) (inside : Follows tokens (depth + 1) w parser) :
    Follows tokens depth (counted w) parser := by
  intro c ready here
  have entered := walk_enter c
  rw [here, if_neg (Nat.not_lt.2 room)] at entered
  have ready' : c.enter.Ready tokens := by
    refine ⟨ready.inside, Nat.le_max_right _ _, Nat.max_le.2 ⟨ready.shallow, ?_⟩⟩
    rw [here]
    exact room
  obtain ⟨result, after, walked, agrees⟩ := inside c.enter ready' (congrArg (· + 1) here)
  have begun : (counted w).walk c = _ := walk_bind_ok entered
  have same_place : c.enter.position = c.position := rfl
  rw [same_place] at agrees
  generalize parser (tokens.drop c.position) = answer at agrees ⊢
  cases agrees with
  | failed shallow =>
      exact ends_congr begun ⟨_, _, walk_bind_error walked, .failed shallow⟩
  | read ready'' restored measured =>
      have left : after.leave.depth = depth := by
        rw [Cursor.leave, restored]
        rfl
      have ready_left : after.leave.Ready tokens :=
        ⟨ready''.inside, Nat.le_trans (Nat.sub_le _ _) ready''.covered, ready''.shallow⟩
      exact ends_congr (begun.trans (walk_bind_ok walked))
        ⟨_, _, walk_leave _ after, .read ready_left left measured⟩

theorem follows_counted_full (full : depth = maxDepth) :
    Follows tokens depth (counted w) (Parse.tooDeep maxDepth) := by
  intro c ready here
  have entered := walk_enter c
  rw [here, full, if_pos (Nat.lt_succ_self _)] at entered
  refine ⟨_, _, walk_bind_error entered, .failed (.inr ⟨?_, rfl⟩)⟩
  have peak : c.enter.peak = max c.peak (c.depth + 1) := rfl
  rw [peak, here, full]
  exact Nat.max_eq_right (Nat.le_succ_of_le ready.shallow)

end Rules

section Phrases

variable {tokens : List Located} {depth budget : Nat} {parser : Parser}

theorem conditional_eq :
    Phrase.read tokens .conditional =
      counted (Phrase.read tokens (.level .or) >>= Parsed.branches tokens) := by
  rw [Phrase.read, counted]
  simp only [bind_assoc]

theorem signed_eq :
    Phrase.read tokens .signed = sign? tokens >>= fun
      | none => Phrase.read tokens .member
      | some op => advance tokens >>= fun _ =>
        counted (Phrase.read tokens .signed) >>= fun operand =>
          parent (.unary op operand.tree) operand.height >>= pure := by
  conv_lhs => rw [Phrase.read]
  refine congrArg (sign? tokens >>= ·) (funext fun sign => ?_)
  cases sign with
  | none => rfl
  | some op => simp only [counted, bind_assoc, pure_bind, bind_pure]

/-- Every operand adds to the height, so the bound on heights is met before that on steps. -/
theorem follows_joins (ended : Ended tokens) {l : Level}
    (follows : Follows tokens depth (Phrase.read tokens (operand l)) parser) (steps : Nat)
    {left : Parsed} (measured : left.Measured) (enough : maxDepth < left.height + steps) :
    Follows tokens depth (Parsed.joins tokens l left) (Parse.chain maxDepth parser l steps left) := by
  induction steps generalizing left with
  | zero => exact absurd enough (Nat.not_lt.2 measured.low)
  | succ steps ih =>
      rw [Parsed.joins, Parse.chain_eq]
      refine follows_operator ended (follows_finish measured) fun p join joins => ?_
      unfold Parse.joinNext
      refine follows_andThen follows fun right measured' => ?_
      refine follows_parent ?_ fun joined => ih joined ?_
      · rw [height_of_joins joins, measured.exact, measured'.exact]
      · have higher : left.height ≤ max left.height right.height := Nat.le_max_left _ _
        show maxDepth < 1 + max left.height right.height + steps
        omega

theorem follows_level (ended : Ended tokens) {l : Level}
    (follows : Follows tokens depth (Phrase.read tokens (operand l))
      (reader maxDepth budget (operand l))) :
    Follows tokens depth (Phrase.read tokens (.level l)) (reader maxDepth budget (.level l)) := by
  have split : reader maxDepth budget (.level l) =
      Parse.andThen (reader maxDepth budget (operand l))
        (Parse.chain maxDepth (reader maxDepth budget (operand l)) l maxDepth) :=
    funext (Parse.reader_level l)
  rw [Phrase.read, split]
  exact follows_andThen follows fun left measured =>
    follows_joins ended follows maxDepth measured measured.steps

theorem follows_branches (ended : Ended tokens)
    (follows : Follows tokens depth (Phrase.read tokens .conditional) parser) {test : Parsed}
    (measured : test.Measured) :
    Follows tokens depth (Parsed.branches tokens test) (Parse.choice maxDepth parser test) := by
  rw [Parsed.branches]
  refine follows_eat ended ?_ (follows_finish measured)
  refine follows_andThen follows fun consequent measured' => ?_
  refine follows_expect ended (follows_andThen follows fun alternate measured'' => ?_)
  rw [← bind_pure (parent _ _)]
  refine follows_parent ?_ follows_finish
  rw [measured.exact, measured'.exact, measured''.exact]
  rfl

theorem follows_conditional (ended : Ended tokens) (room : depth < maxDepth)
    (follows : Follows tokens (depth + 1) (Phrase.read tokens (.level .or))
      (reader maxDepth budget (.level .or)))
    (follows' : Follows tokens (depth + 1) (Phrase.read tokens .conditional)
      (Parse.conditional maxDepth budget)) :
    Follows tokens depth (Phrase.read tokens .conditional)
      (Parse.conditional maxDepth (budget + 1)) := by
  rw [conditional_eq, Parse.conditional_succ, Parse.conditionalOf_eq]
  exact follows_counted room (follows_andThen follows fun test measured =>
    follows_branches ended follows' measured)

theorem follows_accesses (ended : Ended tokens)
    (follows : Follows tokens depth (Phrase.read tokens .conditional) parser) (steps : Nat)
    {object : Parsed} (measured : object.Measured) (enough : maxDepth < object.height + steps) :
    Follows tokens depth (Parsed.accesses tokens object)
      (Parse.accesses maxDepth parser steps object) := by
  induction steps generalizing object with
  | zero => exact absurd enough (Nat.not_lt.2 measured.low)
  | succ steps ih =>
      have behind (tree : Expr) (below : Nat) (higher : object.height ≤ below)
          (joined : Parsed.Measured ⟨tree, 1 + below⟩) :
          Follows tokens depth (Parsed.accesses tokens ⟨tree, 1 + below⟩)
            (Parse.accessNext maxDepth parser (steps + 1) ⟨tree, 1 + below⟩) := by
        refine ih joined ?_
        show maxDepth < 1 + below + steps
        omega
      rw [Parsed.accesses, Parse.accesses_eq]
      refine follows_eat ended ?_ (follows_eat ended ?_ (follows_finish measured))
      · refine follows_advance ended fun t => ?_
        obtain ⟨token, offset⟩ := t
        cases token with
        | ident name =>
            refine .on _ nofun (fun rest => rfl)
              (follows_parent ?_ (behind _ _ (Nat.le_max_left _ _)))
            rw [measured.exact]
            rfl
        | number n | string s | punct p | eof => exact .stuck _ rfl fun rest => rfl
      · refine follows_andThen follows fun property measured' => ?_
        refine follows_expect ended (follows_parent ?_ (behind _ _ (Nat.le_max_left _ _)))
        rw [measured.exact, measured'.exact]
        rfl

theorem height_keyword (name : String) : (Parse.keyword name).height = 1 := by
  have names : Names name (Parse.keyword name) := names_iff.2 rfl
  generalize Parse.keyword name = e at names
  cases names <;> rfl

theorem follows_primary (ended : Ended tokens)
    (follows : Follows tokens depth (Phrase.read tokens .conditional) parser) :
    Follows tokens depth (Phrase.read tokens .primary) (Parse.primary parser) := by
  have leaf {t : Located} {e : Expr} (one : e.height = 1) (not_end : t.token ≠ .eof)
      (step : ∀ rest, Parse.primary parser (t :: rest) = .ok (.leaf e, rest)) :
      Proceeds tokens depth (pure (.leaf e)) (Parse.primary parser) t :=
    .on (Parse.finish (.leaf e)) not_end step (follows_finish (Parsed.measured_leaf one))
  rw [Phrase.read]
  refine follows_advance ended fun t => ?_
  obtain ⟨token, offset⟩ := t
  by_cases ends : token = .eof
  · subst ends
    exact .stuck _ rfl fun rest => rfl
  cases token with
  | number n => exact leaf rfl ends fun rest => rfl
  | string s => exact leaf rfl ends fun rest => rfl
  | ident name => exact leaf (height_keyword name) ends fun rest => rfl
  | eof => exact absurd rfl ends
  | punct p =>
      cases p with
      | openParen =>
          refine .on (Parse.group parser) ends (fun rest => rfl) ?_
          exact follows_andThen follows fun inner measured =>
            follows_expect ended (follows_finish measured)
      | _ => exact .stuck _ rfl fun rest => rfl

theorem follows_member (ended : Ended tokens)
    (follows : Follows tokens depth (Phrase.read tokens .conditional) parser) :
    Follows tokens depth (Phrase.read tokens .member) (Parse.memberOf maxDepth parser) := by
  have split : Parse.memberOf maxDepth parser =
      Parse.andThen (Parse.primary parser) (Parse.accesses maxDepth parser maxDepth) := rfl
  rw [Phrase.read, split]
  exact follows_andThen (follows_primary ended follows) fun object measured =>
    follows_accesses ended follows maxDepth measured measured.steps

def fromSign (deeper parser : Parser) : Option UnaryOp → Parser
  | none => Parse.memberOf maxDepth parser
  | some op => fun ts => Parse.andThen deeper (fun operand =>
    Parse.node maxDepth (.unary op operand.tree) operand.height Parse.finish) (Parse.advance ts)

theorem signed_eq_fromSign (deeper parser : Parser) :
    Parse.signed maxDepth deeper parser =
      fun ts => fromSign deeper parser (Parse.signAt? ts) ts := by
  funext ts
  unfold Parse.signed
  cases Parse.signAt? ts <;> rfl

theorem follows_signed (ended : Ended tokens) {deeper : Parser}
    (deep : Follows tokens depth (counted (Phrase.read tokens .signed)) deeper)
    (follows : Follows tokens depth (Phrase.read tokens .conditional) parser) :
    Follows tokens depth (Phrase.read tokens .signed) (Parse.signed maxDepth deeper parser) := by
  rw [signed_eq, signed_eq_fromSign]
  refine follows_sign fun sign => ?_
  cases sign with
  | none => exact follows_member ended follows
  | some op =>
      simp only [fromSign]
      refine follows_skip ended (follows_andThen deep fun operand measured => ?_)
      refine follows_parent ?_ follows_finish
      rw [measured.exact]
      rfl

theorem follows_levels (ended : Ended tokens)
    (follows : Follows tokens depth (Phrase.read tokens .signed) (Parse.unary maxDepth budget))
    (l : Level) :
    Follows tokens depth (Phrase.read tokens (.level l)) (reader maxDepth budget (.level l)) :=
  level_induction (motive := fun P => Follows tokens depth (Phrase.read tokens P)
    (reader maxDepth budget P)) follows (fun _ operand => follows_level ended operand) l

/-- When the depth and the parser's budget add up to the limit, the walkers of the two nested
phrases agree with their parsers. -/
theorem follows_nested (ended : Ended tokens) (within : depth + budget = maxDepth) :
    Follows tokens depth (Phrase.read tokens .conditional) (Parse.conditional maxDepth budget) ∧
      Follows tokens depth (Phrase.read tokens .signed) (Parse.unary maxDepth budget) := by
  induction budget generalizing depth with
  | zero =>
      have full : Follows tokens depth (Phrase.read tokens .conditional)
          (Parse.conditional maxDepth 0) := by
        rw [conditional_eq, Parse.conditional_zero]
        exact follows_counted_full within
      refine ⟨full, ?_⟩
      rw [Parse.unary_eq]
      exact follows_signed ended (follows_counted_full within) full
  | succ budget ih =>
      have room : depth < maxDepth := by omega
      have inside : depth + 1 + budget = maxDepth := by omega
      obtain ⟨conditional, signed⟩ := ih inside
      have next := follows_conditional ended room (follows_levels ended signed .or) conditional
      refine ⟨next, ?_⟩
      rw [Parse.unary_eq]
      exact follows_signed ended (follows_counted room signed) next

theorem follows_phrase (ended : Ended tokens) (within : depth + budget = maxDepth) (P : Phrase) :
    Follows tokens depth (Phrase.read tokens P) (reader maxDepth budget P) := by
  obtain ⟨conditional, signed⟩ := follows_nested ended within
  cases P with
  | conditional => exact conditional
  | level l => exact follows_levels ended signed l
  | signed => exact signed
  | member => exact follows_member ended conditional
  | primary => exact follows_primary ended conditional

theorem position_lt_of_reader {P : Phrase} {parsed : Parsed} {position position' : Nat}
    (inside : position < tokens.length)
    (read : reader maxDepth budget P (tokens.drop position) =
      .ok (parsed, tokens.drop position')) : position < position' := by
  obtain ⟨front, d, split, derived⟩ := Parse.sound_reader maxDepth budget P _ _ _ read
  have some_taken : 0 < front.length := by
    have nonempty := derived.ne_nil
    rw [ne_eq, List.map_eq_nil_iff] at nonempty
    exact List.length_pos_iff.2 nonempty
  have lengths := congrArg List.length split
  rw [List.length_append, List.length_drop, List.length_drop] at lengths
  omega

end Phrases

theorem ready_start {tokens : List Located} {position depth : Nat}
    (inside : position < tokens.length) (entered : depth ≤ maxDepth) :
    (Cursor.start position depth).Ready tokens := ⟨inside, Nat.le_refl _, entered⟩

/-- On the tokens of a text the walker terminates and agrees with the parser. -/
theorem exists_walk_whole {source : String} {tokens : List Located}
    (scanned : Scan.tokenize source = .ok tokens) :
    ∃ after, (whole tokens).walk (.start 0 0) = some (parse source, after) := by
  have ended := ended_of_tokenize scanned
  have inside : 0 < tokens.length := by
    obtain ⟨front, last, rfl, -⟩ := ended
    simp
  have ready := ready_start inside (Nat.zero_le maxDepth)
  have parsed : parse source = Parse.parseTokens tokens := by
    rw [parse, scanned]
    rfl
  rw [parsed, Parse.parseTokens, whole, walk_bind_ok (walk_peek tokens _), ahead_eq inside]
  show ∃ after, walk (if (Parse.peek tokens).token = .eof then _ else _) _ = _
  by_cases nothing : (Parse.peek tokens).token = .eof
  · rw [if_pos nothing, if_pos nothing]
    exact ⟨_, rfl⟩
  · rw [if_neg nothing, if_neg nothing]
    obtain ⟨result, after, walked, agrees⟩ :=
      (follows_nested ended (Nat.zero_add maxDepth)).1 _ ready rfl
    have here : tokens.drop (Cursor.start 0 0).position = tokens := rfl
    rw [here] at agrees
    generalize Parse.conditional maxDepth maxDepth tokens = answer at agrees
    cases agrees with
    | failed shallow => exact ⟨_, walk_bind_error walked⟩
    | read ready' restored measured =>
        refine ⟨after, ?_⟩
        rw [walk_bind_ok walked, walk_bind_ok (walk_peek tokens after), ahead_eq ready'.inside]
        show _ = some (if (Parse.peek (tokens.drop after.position)).token = .eof then _ else _, _)
        split <;> rfl

/-- At every position and every depth within the limit, the walker of a phrase terminates with the
answer of the parser without counters. On success the depth is restored, the position has advanced
within the tokens, and the recorded height is that of the tree and at most 64. The peak is at most
65, and 65 only when the phrase is refused. -/
theorem phrase_keeps_counters {tokens : List Located} (ended : Ended tokens) (P : Phrase)
    {position depth : Nat} (inside : position < tokens.length) (entered : depth ≤ 64) :
    ∃ result after, (Phrase.read tokens P).walk (.start position depth) = some (result, after) ∧
      reader 64 (64 - depth) P (tokens.drop position) =
        result.map (fun parsed => (parsed, tokens.drop after.position)) ∧
      (∀ parsed, result = .ok parsed →
        after.depth = depth ∧ position < after.position ∧ after.position < tokens.length ∧
          parsed.height = parsed.tree.height ∧ parsed.height ≤ 64) ∧
      after.peak ≤ 65 ∧ (after.peak = 65 → result = .error (.tooDeep 64)) := by
  have within : depth + (64 - depth) = maxDepth := Nat.add_sub_cancel' entered
  have follows := follows_phrase ended within P
  obtain ⟨result, after, walked, agrees⟩ :=
    follows (.start position depth) (ready_start inside entered) rfl
  refine ⟨result, after, walked, ?_⟩
  have here : (Cursor.start position depth).position = position := rfl
  rw [here] at agrees
  generalize answered : reader maxDepth (64 - depth) P (tokens.drop position) = answer at agrees
  cases agrees with
  | read ready restored measured =>
      refine ⟨answered, ?_, Nat.le_succ_of_le ready.shallow, fun reached => ?_⟩
      · rintro parsed ⟨⟩
        exact ⟨restored, position_lt_of_reader inside answered, ready.inside, measured.exact,
          measured.low⟩
      · have shallow := ready.shallow
        rw [reached] at shallow
        exact absurd shallow (by decide)
  | failed shallow =>
      refine ⟨answered, nofun, ?_, fun reached => ?_⟩
      · rcases shallow with low | ⟨reached, -⟩
        · exact Nat.le_succ_of_le low
        · exact Nat.le_of_eq reached
      · rcases shallow with low | ⟨-, rfl⟩
        · rw [reached] at low
          exact absurd low (by decide)
        · rfl

end Walker

end Formwork.Expr

namespace Formwork.Sample

open Formwork.Expr Formwork.Expr.Grammar Formwork.Expr.Walker

/-- `-(a)` -/
def negatedGroup : List Located :=
  [⟨.punct .minus, 0⟩, ⟨.punct .openParen, 1⟩, ⟨.ident "a", 2⟩, ⟨.punct .closeParen, 3⟩,
    ⟨.eof, 4⟩]

/-- The sign and the group take two levels: there is room for both at depth 62, and at depth 63 the
group exceeds the limit. -/
theorem phrase_keeps_counters_negatedGroup :
    Ended negatedGroup ∧ 0 < negatedGroup.length ∧
    (∃ after, (Phrase.read negatedGroup .signed).walk (.start 0 62) =
        some (.ok ⟨.unary .negate (.variable "a"), 2⟩, after) ∧
      after.depth = 62 ∧ after.position < negatedGroup.length ∧ after.peak ≤ 65) ∧
    ∃ after, (Phrase.read negatedGroup .signed).walk (.start 0 63) =
      some (.error (.tooDeep 64), after) ∧ after.peak ≤ 65 := by
  have ended : Ended negatedGroup :=
    ⟨negatedGroup.dropLast, ⟨.eof, 4⟩, rfl, rfl, by decide⟩
  have inside : 0 < negatedGroup.length := by decide
  refine ⟨ended, inside, ?_, ?_⟩
  · obtain ⟨result, after, walked, answered, exact, bound, -⟩ :=
      phrase_keeps_counters ended .signed inside (show 62 ≤ 64 by decide)
    cases result with
    | error e => cases answered
    | ok parsed =>
        obtain ⟨restored, -, within, -, -⟩ := exact parsed rfl
        have same : (⟨.unary .negate (.variable "a"), 2⟩ : Parsed) = parsed :=
          congrArg Prod.fst (Except.ok.inj answered)
        exact ⟨after, same ▸ walked, restored, within, bound⟩
  · obtain ⟨result, after, walked, answered, -, bound, -⟩ :=
      phrase_keeps_counters ended .signed inside (show 63 ≤ 64 by decide)
    cases result with
    | ok parsed => cases answered
    | error e =>
        cases answered
        exact ⟨after, walked, bound⟩

end Formwork.Sample
