import Mathlib.Logic.Function.Basic
import Formwork.Proofs.Node.Escape
import Formwork.Proofs.Number.Text

/-!
# Markup

The markup of a node determines its normal form, which omits fragments, empty nodes, handlers and
the boundaries between texts. For plain elements the markup can be read back.
-/

namespace Formwork

inductive Markup where
  | text (t : String)
  /-- An element without children. -/
  | single (tag : String)
  /-- An element with children, possibly without visible content. -/
  | element (tag : String) (content : List Markup)

namespace Markup

def consText (t : String) : List Markup → List Markup
  | .text u :: rest => .text (t ++ u) :: rest
  | ms => .text t :: ms

/-- Joins adjacent texts. -/
def joinTexts : List Markup → List Markup
  | [] => []
  | .text t :: rest => consText t (joinTexts rest)
  | m :: rest => m :: joinTexts rest

def inTag (c : Char) : Bool := !([' ', '<', '>', '/'].contains c)

/-- A name without characters of the markup. -/
structure IsTag (tag : String) : Prop where
  nonempty : tag ≠ ""
  letters : ∀ c ∈ tag.toList, inTag c = true

/-! ## Writing -/

mutual

def chars : Markup → List Char
  | .text t => t.toList.flatMap Node.entity
  | .single tag => '<' :: (tag.toList ++ [' ', '/', '>'])
  | .element tag content =>
    '<' :: (tag.toList ++ '>' :: (charsOf content ++ '<' :: '/' :: (tag.toList ++ ['>'])))

def charsOf : List Markup → List Char
  | [] => []
  | m :: rest => chars m ++ charsOf rest

end

theorem charsOf_append (ms ns : List Markup) : charsOf (ms ++ ns) = charsOf ms ++ charsOf ns := by
  induction ms with
  | nil => rfl
  | cons m rest ih => rw [List.cons_append, charsOf, charsOf, ih, List.append_assoc]

theorem charsOf_consText (t : String) (ms : List Markup) :
    charsOf (consText t ms) = t.toList.flatMap Node.entity ++ charsOf ms := by
  unfold consText
  split
  · simp only [charsOf, chars, String.toList_append, List.flatMap_append, List.append_assoc]
  · rfl

theorem charsOf_joinTexts (ms : List Markup) : charsOf (joinTexts ms) = charsOf ms := by
  induction ms with
  | nil => rfl
  | cons m rest ih =>
      cases m with
      | text t => rw [joinTexts, charsOf_consText, ih, charsOf, chars]
      | single tag => rw [joinTexts, charsOf, charsOf, ih]; nofun
      | element tag content => rw [joinTexts, charsOf, charsOf, ih]; nofun

/-! ## Reading -/

/-- Parses markup up to the closing tag of its parent, or to the end. The name of a closing tag is
that of the element. -/
def read? : Nat → List Char → Option (List Markup × List Char)
  | 0, _ => none
  | _ + 1, [] => some ([], [])
  | _ + 1, '<' :: '/' :: rest => some ([], '<' :: '/' :: rest)
  | fuel + 1, '<' :: rest =>
    let tag := rest.takeWhile inTag
    match rest.dropWhile inTag with
    | ' ' :: '/' :: '>' :: behind =>
      (read? fuel behind).map fun (more, left) => (.single (String.ofList tag) :: more, left)
    | '>' :: inside =>
      (read? fuel inside).bind fun (content, closing) =>
        (read? fuel (closing.drop (tag.length + 3))).map fun (more, left) =>
          (.element (String.ofList tag) content :: more, left)
    | _ => none
  | fuel + 1, cs =>
    (Node.unescape? (cs.takeWhile (· ≠ '<'))).bind fun t =>
      (read? fuel (cs.dropWhile (· ≠ '<'))).map fun (more, left) =>
        (.text (String.ofList t) :: more, left)

def Stops (rest : List Char) : Prop := rest = [] ∨ ∃ more, rest = '<' :: '/' :: more

/-- No text is empty, no two texts are adjacent, and tags are proper. -/
inductive Readable : List Markup → Prop where
  | nil : Readable []
  | text {t : String} {rest : List Markup} (nonempty : t ≠ "")
      (alone : ∀ u more, rest ≠ .text u :: more) (behind : Readable rest) :
      Readable (.text t :: rest)
  | single {tag : String} {rest : List Markup} (is_tag : IsTag tag) (behind : Readable rest) :
      Readable (.single tag :: rest)
  | element {tag : String} {content rest : List Markup} (is_tag : IsTag tag)
      (inside : Readable content) (behind : Readable rest) :
      Readable (.element tag content :: rest)

variable {tag : String} {fuel : Nat} {ms : List Markup} {rest : List Char}

theorem IsTag.exists_cons (is_tag : IsTag tag) : ∃ c cs, tag.toList = c :: cs ∧ c ≠ '/' := by
  cases split : tag.toList with
  | nil => exact absurd (String.toList_eq_nil_iff.1 split) is_tag.nonempty
  | cons c cs =>
      refine ⟨c, cs, rfl, ?_⟩
      rintro rfl
      exact absurd (is_tag.letters '/' (split ▸ List.mem_cons_self)) (by decide)

theorem read?_open (is_tag : IsTag tag) {c : Char} (ends : inTag c = false) (fuel : Nat)
    (rest : List Char) :
    read? (fuel + 1) ('<' :: (tag.toList ++ c :: rest)) =
      match c :: rest with
      | ' ' :: '/' :: '>' :: behind =>
        (read? fuel behind).map fun (more, left) => (.single tag :: more, left)
      | '>' :: inside =>
        (read? fuel inside).bind fun (content, closing) =>
          (read? fuel (closing.drop (tag.toList.length + 3))).map fun (more, left) =>
            (.element tag content :: more, left)
      | _ => none := by
  have behind : ∀ d ∈ (c :: rest).head?, inTag d = false := by
    rintro d ⟨⟩
    exact ends
  obtain ⟨taken, dropped⟩ := span_append is_tag.letters behind
  obtain ⟨d, ds, split, open_tag⟩ := is_tag.exists_cons
  rw [split] at taken dropped ⊢
  rw [List.cons_append] at taken dropped ⊢
  rw [read?]
  · rw [taken, dropped, ← split, String.ofList_toList]
  · exact fun more same => open_tag (List.cons.inj same).1

theorem escaped_ne_nil {t : String} (nonempty : t ≠ "") : t.toList.flatMap Node.entity ≠ [] :=
  fun nothing => nonempty (String.toList_eq_nil_iff.1 (Node.escaped_injective nothing))

theorem read?_text {t : String} (nonempty : t ≠ "") (behind : ∀ c ∈ rest.head?, c = '<')
    (fuel : Nat) :
    read? (fuel + 1) (t.toList.flatMap Node.entity ++ rest) =
      (read? fuel rest).map fun (more, left) => (.text t :: more, left) := by
  have inside : ∀ c ∈ t.toList.flatMap Node.entity, decide (c ≠ '<') = true := by
    intro c mem
    refine decide_eq_true ?_
    rintro rfl
    exact Node.not_mem_escaped (.inl rfl) _ mem
  have ends : ∀ c ∈ rest.head?, decide (c ≠ '<') = false := by
    intro c head
    simp [behind c head]
  obtain ⟨taken, dropped⟩ := span_append inside ends
  obtain ⟨c, cs, escaped⟩ := List.exists_cons_of_ne_nil (escaped_ne_nil nonempty)
  have no_bracket : c ≠ '<' := by
    simpa using inside c (escaped ▸ List.mem_cons_self)
  have read := Node.unescape?_escaped t.toList
  rw [escaped] at taken dropped read ⊢
  rw [List.cons_append] at taken dropped ⊢
  rw [read?]
  · rw [taken, dropped, read, Option.bind_some, String.ofList_toList]
  · nofun
  · exact fun more same => no_bracket (List.cons.inj same).1
  · exact fun more same => no_bracket (List.cons.inj same).1

theorem Stops.head {rest : List Char} (stops : Stops rest) : ∀ c ∈ rest.head?, c = '<' := by
  rcases stops with rfl | ⟨more, rfl⟩
  · nofun
  · rintro c ⟨⟩
    rfl

theorem head_charsOf (alone : ∀ u more, ms ≠ .text u :: more) (stops : Stops rest) :
    ∀ c ∈ (charsOf ms ++ rest).head?, c = '<' := by
  cases ms with
  | nil => exact stops.head
  | cons m more =>
      cases m with
      | text u => exact absurd rfl (alone u more)
      | single tag | element tag content =>
          rintro c ⟨⟩
          rfl

theorem charsOf_single_append (tag : String) (ms : List Markup) (rest : List Char) :
    charsOf (.single tag :: ms) ++ rest =
      '<' :: (tag.toList ++ ' ' :: '/' :: '>' :: (charsOf ms ++ rest)) := by
  simp [charsOf, chars]

theorem charsOf_element_append (tag : String) (content ms : List Markup) (rest : List Char) :
    charsOf (.element tag content :: ms) ++ rest =
      '<' :: (tag.toList ++ '>' :: (charsOf content ++
        '<' :: '/' :: (tag.toList ++ '>' :: (charsOf ms ++ rest)))) := by
  simp [charsOf, chars]

/-- Parsing inverts the text of readable markup. -/
theorem Readable.read?_charsOf (readable : Readable ms) (stops : Stops rest)
    (enough : (charsOf ms ++ rest).length < fuel) :
    read? fuel (charsOf ms ++ rest) = some (ms, rest) := by
  induction readable generalizing fuel rest with
  | nil =>
      obtain ⟨fuel, rfl⟩ := Nat.exists_eq_add_of_lt enough
      rcases stops with rfl | ⟨more, rfl⟩ <;> rfl
  | @text t more nonempty alone behind ih =>
      obtain ⟨fuel, rfl⟩ : ∃ n, fuel = n + 1 := Nat.exists_eq_add_one.2 (Nat.zero_lt_of_lt enough)
      have some_text := List.length_pos_of_ne_nil (escaped_ne_nil nonempty)
      rw [charsOf, chars, List.append_assoc] at enough ⊢
      rw [List.length_append] at enough
      have more_read : read? fuel (charsOf more ++ rest) = some (more, rest) :=
        ih stops (by omega)
      rw [read?_text nonempty (head_charsOf alone stops), more_read, Option.map_some]
  | @single tag more is_tag behind ih =>
      obtain ⟨fuel, rfl⟩ : ∃ n, fuel = n + 1 := Nat.exists_eq_add_one.2 (Nat.zero_lt_of_lt enough)
      rw [charsOf_single_append] at enough ⊢
      simp only [List.length_cons, List.length_append] at enough
      have more_read : read? fuel (charsOf more ++ rest) = some (more, rest) :=
        ih stops (by rw [List.length_append]; omega)
      rw [read?_open is_tag (by decide)]
      simp only [more_read, Option.map_some]
  | @element tag content more is_tag inside behind ih ih' =>
      obtain ⟨fuel, rfl⟩ : ∃ n, fuel = n + 1 := Nat.exists_eq_add_one.2 (Nat.zero_lt_of_lt enough)
      rw [charsOf_element_append] at enough ⊢
      simp only [List.length_cons, List.length_append] at enough
      -- The closing tag is where the content stops, and as long as the name says.
      let closing := '<' :: '/' :: (tag.toList ++ '>' :: (charsOf more ++ rest))
      have content_read : read? fuel (charsOf content ++ closing) = some (content, closing) := by
        refine ih (.inr ⟨_, rfl⟩) ?_
        simp only [closing, List.length_cons, List.length_append]
        omega
      have closed : closing.drop (tag.toList.length + 3) = charsOf more ++ rest := by
        simp [closing]
      have more_read : read? fuel (charsOf more ++ rest) = some (more, rest) :=
        ih' stops (by rw [List.length_append]; omega)
      rw [read?_open is_tag (by decide)]
      simp only [closing] at content_read closed
      simp only [content_read, Option.bind_some, closed, more_read, Option.map_some]

/-- A piece of markup that is readable by itself. -/
inductive Proper : Markup → Prop where
  | text {t : String} (nonempty : t ≠ "") : Proper (.text t)
  | single {tag : String} (is_tag : IsTag tag) : Proper (.single tag)
  | element {tag : String} {content : List Markup} (is_tag : IsTag tag)
      (inside : Readable content) : Proper (.element tag content)

theorem Readable.consText {t : String} (readable : Readable ms) (nonempty : t ≠ "") :
    Readable (consText t ms) := by
  cases readable with
  | nil => exact .text nonempty nofun .nil
  | text _ alone behind =>
      refine .text (fun nothing => nonempty ?_) alone behind
      exact (String.append_eq_empty_iff.1 nothing).1
  | single is_tag behind => exact .text nonempty nofun (.single is_tag behind)
  | element is_tag inside behind => exact .text nonempty nofun (.element is_tag inside behind)

theorem readable_joinTexts (each : ∀ m ∈ ms, m.Proper) : Readable (joinTexts ms) := by
  induction ms with
  | nil => exact .nil
  | cons m rest ih =>
      obtain ⟨first, others⟩ := List.forall_mem_cons.1 each
      cases first with
      | text nonempty => exact (ih others).consText nonempty
      | single is_tag => exact .single is_tag (ih others)
      | element is_tag inside => exact .element is_tag inside (ih others)

end Markup

/-- An element without props, with a proper tag. -/
structure Element.Plain {σ : Type} (e : Element σ) : Prop where
  no_props : e.props = .empty
  is_tag : Markup.IsTag e.tag

namespace Node

open Markup

variable {σ : Type}

def Plain (n : Node σ) : Prop := ∀ e ∈ n.elements, e.Plain

mutual

/-- The visible content of a node, before adjacent texts are joined. -/
def pieces : Node σ → List Markup
  | .empty => []
  | .text t => if t = "" then [] else [.text t]
  | .fragment children => piecesOf children
  | .element tag _ _ [] => [.single tag]
  | .element tag _ _ (child :: rest) =>
    [.element tag (joinTexts (pieces child ++ piecesOf rest))]

def piecesOf : List (Node σ) → List Markup
  | [] => []
  | n :: rest => pieces n ++ piecesOf rest

end

/-- The normal form of a node: no fragments, empty nodes or empty texts, and adjacent texts
joined. -/
def normal (n : Node σ) : List Markup := joinTexts n.pieces

mutual

theorem toList_display :
    ∀ n : Node σ, n.Plain → n.display.toList = charsOf n.pieces
  | .empty, _ => rfl
  | .text t, _ => by
      rw [display, pieces, toList_escape]
      split
      · next nothing =>
        rw [nothing]
        rfl
      · rw [charsOf, charsOf, chars, List.append_nil]
  | .fragment children, plain => toList_displayAll children plain
  | .element tag props onChange [], plain => by
      obtain ⟨rfl, -⟩ := plain _ List.mem_cons_self
      simp [display, pieces, charsOf, chars, attributes, Record.empty]
  | .element tag props onChange (child :: rest), plain => by
      obtain ⟨here, inside⟩ := List.forall_mem_cons.1 plain
      obtain ⟨rfl, -⟩ := here
      obtain ⟨first, others⟩ := List.forall_mem_append.1 inside
      have child_text := toList_display child first
      have rest_text := toList_displayAll rest others
      simp [display, pieces, charsOf, chars, attributes, Record.empty, charsOf_joinTexts,
        charsOf_append, child_text, rest_text]

theorem toList_displayAll :
    ∀ ns : List (Node σ), (∀ e ∈ elementsOf ns, e.Plain) →
      (displayAll ns).toList = charsOf (piecesOf ns)
  | [], _ => rfl
  | n :: rest, plain => by
      obtain ⟨first, others⟩ := List.forall_mem_append.1 plain
      rw [displayAll, piecesOf, String.toList_append, charsOf_append, toList_display n first,
        toList_displayAll rest others]

end

mutual

theorem proper_pieces : ∀ n : Node σ, n.Plain → ∀ m ∈ n.pieces, m.Proper
  | .empty, _ => nofun
  | .text t, _ => by
      rw [pieces]
      split
      · nofun
      · next nonempty => exact List.forall_mem_singleton.2 (.text nonempty)
  | .fragment children, plain => proper_piecesOf children plain
  | .element tag props onChange [], plain =>
      List.forall_mem_singleton.2 (.single (plain _ List.mem_cons_self).is_tag)
  | .element tag props onChange (child :: rest), plain => by
      obtain ⟨here, inside⟩ := List.forall_mem_cons.1 plain
      obtain ⟨first, others⟩ := List.forall_mem_append.1 inside
      refine List.forall_mem_singleton.2 (.element here.is_tag (readable_joinTexts ?_))
      exact List.forall_mem_append.2 ⟨proper_pieces child first, proper_piecesOf rest others⟩

theorem proper_piecesOf : ∀ ns : List (Node σ), (∀ e ∈ elementsOf ns, e.Plain) →
    ∀ m ∈ piecesOf ns, m.Proper
  | [], _ => nofun
  | n :: rest, plain => by
      obtain ⟨first, others⟩ := List.forall_mem_append.1 plain
      exact List.forall_mem_append.2 ⟨proper_pieces n first, proper_piecesOf rest others⟩

end

theorem toList_display_normal {n : Node σ} (plain : n.Plain) :
    n.display.toList = charsOf n.normal := by
  rw [normal, charsOf_joinTexts, toList_display n plain]

theorem read?_display {n : Node σ} (plain : n.Plain) :
    read? (n.display.length + 1) n.display.toList = some (n.normal, []) := by
  have readable : Readable n.normal := readable_joinTexts (proper_pieces n plain)
  have whole : charsOf n.normal ++ [] = n.display.toList := by
    rw [List.append_nil, toList_display_normal plain]
  rw [← whole]
  refine readable.read?_charsOf (.inl rfl) ?_
  rw [whole, String.length_toList]
  exact Nat.lt_succ_self _

/-- Markup is uniquely readable. Escaping is a simultaneous replacement of the three special
characters; escaped texts have no brackets and are read back, and nothing else is. Two plain trees
have the same text if and only if their normal forms are equal. -/
theorem markup_uniquely_readable :
    (∀ t, escape t = String.ofList (t.toList.flatMap entity)) ∧
    (∀ t u : String, unescape? u.toList = some t.toList ↔ u = escape t) ∧
    Function.Injective escape ∧
    (∀ t, '<' ∉ (escape t).toList ∧ '>' ∉ (escape t).toList) ∧
    ∀ m n : Node σ, m.Plain → n.Plain → (m.display = n.display ↔ m.normal = n.normal) := by
  refine ⟨fun t => ?_, fun t u => ?_, fun t u same => ?_, fun t => ?_, fun m n plain plain' => ?_⟩
  · rw [← toList_escape, String.ofList_toList]
  · rw [unescape?_eq_some_iff, ← toList_escape, String.toList_inj]
  · have chars_same := congrArg String.toList same
    rw [toList_escape, toList_escape] at chars_same
    exact String.toList_inj.1 (escaped_injective chars_same)
  · rw [toList_escape]
    exact ⟨not_mem_escaped (.inl rfl) _, not_mem_escaped (.inr rfl) _⟩
  · constructor
    · intro same
      have read := read?_display plain
      rw [same, read?_display plain'] at read
      exact (congrArg Prod.fst (Option.some.inj read)).symm
    · intro same
      rw [← String.toList_inj, toList_display_normal plain, toList_display_normal plain', same]

end Node

namespace Sample

/-- A label, and the same one in pieces and with a handler. -/
def label : Node Unit := .element "label" .empty none [.text "a < b"]

def brokenLabel : Node Unit :=
  .fragment [.empty, .element "label" .empty (some fun _ => pure ())
    [.text "a ", .fragment [.text "< b", .text ""]]]

def childless : Node Unit := .element "br" .empty none []

def vanishing : Node Unit := .element "br" .empty none [.empty]

theorem plain_of_elements {n : Node Unit} {e : Element Unit} (only : n.elements = [e])
    (no_props : e.props = .empty) (is_tag : Markup.IsTag e.tag) : n.Plain := by
  rw [Node.Plain, only]
  exact List.forall_mem_singleton.2 ⟨no_props, is_tag⟩

/-- The label in pieces has the same text. An element without children differs from one with
invisible children. -/
theorem markup_uniquely_readable_label :
    label.Plain ∧ brokenLabel.Plain ∧ label.display = brokenLabel.display ∧
      childless.Plain ∧ vanishing.Plain ∧ childless.display ≠ vanishing.display := by
  obtain ⟨-, -, -, -, readable⟩ := Node.markup_uniquely_readable (σ := Unit)
  have is_label : Markup.IsTag "label" := ⟨by decide, by simp [Markup.inTag]⟩
  have is_br : Markup.IsTag "br" := ⟨by decide, by simp [Markup.inTag]⟩
  have plain_label : label.Plain := plain_of_elements rfl rfl is_label
  have plain_pieces : brokenLabel.Plain := plain_of_elements rfl rfl is_label
  have plain_childless : childless.Plain := plain_of_elements rfl rfl is_br
  have plain_vanishing : vanishing.Plain := plain_of_elements rfl rfl is_br
  refine ⟨plain_label, plain_pieces, (readable _ _ plain_label plain_pieces).2 rfl,
    plain_childless, plain_vanishing, fun same => ?_⟩
  have normal_same := (readable _ _ plain_childless plain_vanishing).1 same
  cases normal_same

end Sample

end Formwork
