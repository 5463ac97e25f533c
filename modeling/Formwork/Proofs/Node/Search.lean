import Formwork.Node

/-!
# Search in document order

Elements are addressed by the path of child indices. Lexicographic order of paths is document order;
the list of all elements ascends in it, and the search finds the first match.
-/

namespace Formwork

variable {σ : Type}

theorem Element.toNode_inj {e e' : Element σ} : e.toNode = e'.toNode ↔ e = e' := by
  constructor
  · intro same
    cases e
    cases same
    rfl
  · exact congrArg _

namespace Node

def children : Node σ → List (Node σ)
  | .empty => []
  | .text _ => []
  | .element _ _ _ children => children
  | .fragment children => children

/-- The element is at this path of the tree. -/
inductive Stands : Node σ → List Nat → Element σ → Prop
  | here (e : Element σ) : Stands e.toNode [] e
  | inside {n child : Node σ} {i : Nat} {path : List Nat} {e : Element σ}
      (step : n.children[i]? = some child) (stands : Stands child path e) :
      Stands n (i :: path) e

section Paths

variable {n : Node σ} {i : Nat} {path : List Nat} {e : Element σ}

theorem stands_nil_iff : Stands n [] e ↔ n = e.toNode := by
  constructor
  · rintro ⟨⟩
    rfl
  · rintro rfl
    exact .here e

theorem stands_cons_iff :
    Stands n (i :: path) e ↔ ∃ child, n.children[i]? = some child ∧ Stands child path e := by
  constructor
  · rintro (_ | ⟨step, stands⟩)
    exact ⟨_, step, stands⟩
  · rintro ⟨child, step, stands⟩
    exact .inside step stands

end Paths

mutual

/-- All elements with their paths, in preorder. -/
def places : Node σ → List (List Nat × Element σ)
  | .empty => []
  | .text _ => []
  | .element tag props onChange children =>
    ([], ⟨tag, props, onChange, children⟩) :: placesOf 0 children
  | .fragment children => placesOf 0 children

def placesOf (i : Nat) : List (Node σ) → List (List Nat × Element σ)
  | [] => []
  | n :: rest => (places n).map (fun place => (i :: place.1, place.2)) ++ placesOf (i + 1) rest

end

mutual

theorem map_snd_places : ∀ n : Node σ, n.places.map Prod.snd = n.elements
  | .empty => rfl
  | .text _ => rfl
  | .element tag props onChange children => by
      rw [places, elements, List.map_cons, map_snd_placesOf 0 children]
  | .fragment children => by rw [places, elements, map_snd_placesOf 0 children]

theorem map_snd_placesOf (i : Nat) :
    ∀ ns : List (Node σ), (placesOf i ns).map Prod.snd = elementsOf ns
  | [] => rfl
  | n :: rest => by
      rw [placesOf, elementsOf, List.map_append, List.map_map, map_snd_placesOf (i + 1) rest,
        ← map_snd_places n]
      rfl

end

theorem exists_path_iff {ns : List (Node σ)} {i : Nat} {path : List Nat} {e : Element σ} :
    (∃ j rest, i :: path = (0 + j) :: rest ∧ ∃ child, ns[j]? = some child ∧ child.Stands rest e) ↔
      ∃ child, ns[i]? = some child ∧ child.Stands path e := by
  constructor
  · rintro ⟨j, rest, same, found⟩
    obtain ⟨rfl, rfl⟩ := List.cons.inj (Nat.zero_add j ▸ same)
    exact found
  · intro found
    exact ⟨i, path, by rw [Nat.zero_add], found⟩

mutual

theorem mem_places : ∀ (n : Node σ) (path : List Nat) (e : Element σ),
    (path, e) ∈ n.places ↔ n.Stands path e
  | .empty, [], e => by simp [places, stands_nil_iff, Element.toNode]
  | .empty, i :: path, e => by simp [places, stands_cons_iff, children]
  | .text t, [], e => by simp [places, stands_nil_iff, Element.toNode]
  | .text t, i :: path, e => by simp [places, stands_cons_iff, children]
  | .element tag props onChange ns, [], e => by
      have whole : element tag props onChange ns = Element.toNode ⟨tag, props, onChange, ns⟩ := rfl
      rw [stands_nil_iff, whole, Element.toNode_inj]
      simp [places, Element.toNode, mem_placesOf ns 0, eq_comm]
  | .element tag props onChange ns, i :: path, e => by
      rw [places, List.mem_cons, mem_placesOf ns 0, exists_path_iff, stands_cons_iff]
      simp [children]
  | .fragment ns, [], e => by
      simp [places, mem_placesOf ns 0, stands_nil_iff, Element.toNode]
  | .fragment ns, i :: path, e => by
      rw [places, mem_placesOf ns 0, exists_path_iff, stands_cons_iff]
      rfl

theorem mem_placesOf : ∀ (ns : List (Node σ)) (i : Nat) (path : List Nat) (e : Element σ),
    (path, e) ∈ placesOf i ns ↔
      ∃ j rest, path = (i + j) :: rest ∧ ∃ child, ns[j]? = some child ∧ child.Stands rest e
  | [], i, path, e => by simp [placesOf]
  | n :: ns, i, path, e => by
      have first : (path, e) ∈ n.places.map (fun place => (i :: place.1, place.2)) ↔
          ∃ rest, path = i :: rest ∧ n.Stands rest e := by
        simp only [List.mem_map, Prod.exists, Prod.mk.injEq, mem_places n]
        constructor
        · rintro ⟨rest, e', stands, rfl, rfl⟩
          exact ⟨rest, rfl, stands⟩
        · rintro ⟨rest, rfl, stands⟩
          exact ⟨rest, e, stands, rfl, rfl⟩
      rw [placesOf, List.mem_append, first, mem_placesOf ns (i + 1) path e]
      constructor
      · rintro (⟨rest, rfl, stands⟩ | ⟨j, rest, rfl, found⟩)
        · exact ⟨0, rest, rfl, n, rfl, stands⟩
        · exact ⟨j + 1, rest, by rw [Nat.add_right_comm, Nat.add_assoc], found⟩
      · rintro ⟨j, rest, rfl, child, here, stands⟩
        cases j with
        | zero =>
            obtain rfl : n = child := Option.some.inj here
            exact .inl ⟨rest, rfl, stands⟩
        | succ j =>
            exact .inr ⟨j, rest, by rw [Nat.add_right_comm, Nat.add_assoc], child, here, stands⟩

end

mutual

theorem pairwise_places : ∀ n : Node σ, (n.places.map Prod.fst).Pairwise (· < ·)
  | .empty => .nil
  | .text _ => .nil
  | .element tag props onChange children => by
      rw [places, List.map_cons, List.pairwise_cons]
      refine ⟨fun path mem => ?_, pairwise_placesOf 0 children⟩
      obtain ⟨⟨path, e⟩, found, rfl⟩ := List.mem_map.1 mem
      obtain ⟨j, rest, rfl, -⟩ := (mem_placesOf children 0 path e).1 found
      exact List.nil_lt_cons _ _
  | .fragment children => by
      rw [places]
      exact pairwise_placesOf 0 children

theorem pairwise_placesOf (i : Nat) :
    ∀ ns : List (Node σ), ((placesOf i ns).map Prod.fst).Pairwise (· < ·)
  | [] => .nil
  | n :: ns => by
      rw [placesOf, List.map_append, List.map_map, List.pairwise_append]
      refine ⟨?_, pairwise_placesOf (i + 1) ns, ?_⟩
      · have below := pairwise_places n
        rw [List.pairwise_map] at below ⊢
        exact below.imp fun before => List.cons_lt_cons_iff.2 (.inr ⟨rfl, before⟩)
      · intro path mem path' mem'
        obtain ⟨⟨rest, e⟩, -, rfl⟩ := List.mem_map.1 mem
        obtain ⟨⟨path', e'⟩, found, rfl⟩ := List.mem_map.1 mem'
        obtain ⟨j, rest', rfl, -⟩ := (mem_placesOf ns (i + 1) path' e').1 found
        exact List.cons_lt_cons_iff.2 (.inl (by omega))

end

mutual

theorem find?_eq (tag : String) : ∀ n : Node σ, find? tag n = n.elements.find? (·.tag == tag)
  | .empty => rfl
  | .text _ => rfl
  | .element t props onChange children => by
      rw [find?, elements, List.find?_cons]
      by_cases same : t = tag
      · simp [same]
      · rw [if_neg same, findIn?_eq tag children, beq_false_of_ne same]
  | .fragment children => by rw [find?, elements, findIn?_eq tag children]

theorem findIn?_eq (tag : String) :
    ∀ ns : List (Node σ), findIn? tag ns = (elementsOf ns).find? (·.tag == tag)
  | [] => rfl
  | n :: rest => by
      rw [findIn?, elementsOf, List.find?_append, find?_eq tag n, findIn?_eq tag rest]

end

theorem find?_eq_some_iff_least {α : Type} {l : List (List Nat × α)} {p : α → Bool}
    (ascending : (l.map Prod.fst).Pairwise (· < ·)) {a : α} :
    (l.map Prod.snd).find? p = some a ↔
      p a = true ∧ ∃ key, (key, a) ∈ l ∧
        ∀ key' a', (key', a') ∈ l → key' < key → p a' = false := by
  rw [List.pairwise_map] at ascending
  constructor
  · intro found
    rw [List.find?_map, Option.map_eq_some_iff] at found
    obtain ⟨⟨key, a⟩, found, rfl⟩ := found
    obtain ⟨holds, before, behind, rfl, missed⟩ := List.find?_eq_some_iff_append.1 found
    refine ⟨holds, key, by simp, fun key' a' mem less => ?_⟩
    obtain ⟨-, later, -⟩ := List.pairwise_append.1 ascending
    rcases List.mem_append.1 mem with earlier | same_or_later
    · simpa using missed _ earlier
    · rcases List.mem_cons.1 same_or_later with same | after
      · obtain ⟨rfl, -⟩ := Prod.mk.inj same
        exact absurd less (List.lt_irrefl _)
      · exact absurd less (List.lt_asymm ((List.pairwise_cons.1 later).1 _ after))
  · rintro ⟨holds, key, mem, least⟩
    obtain ⟨before, behind, rfl⟩ := List.append_of_mem mem
    obtain ⟨-, -, earlier⟩ := List.pairwise_append.1 ascending
    have missed (place : List Nat × α) (there : place ∈ before) : p place.2 = false :=
      least place.1 place.2 (List.mem_append_left _ there)
        (earlier place there (key, a) List.mem_cons_self)
    refine List.find?_eq_some_iff_append.2
      ⟨holds, before.map Prod.snd, behind.map Prod.snd, by simp, fun a' mem' => ?_⟩
    obtain ⟨place, there, rfl⟩ := List.mem_map.1 mem'
    rw [missed place there]
    rfl

/-- The search follows document order: it finds the first matching element of the list of all
elements. The list has the elements at all paths of the tree, once each, parents before descendants
and children from left to right. The element found therefore occurs in the tree with its own props,
handler and children, no earlier element has the tag, and there is none exactly if no element at any
depth has the tag. -/
theorem find?_first_in_document_order (tag : String) (n : Node σ) :
    find? tag n = n.elements.find? (·.tag == tag) ∧
    (n.elements = n.places.map Prod.snd ∧ (n.places.map Prod.fst).Pairwise (· < ·) ∧
      ∀ path e, (path, e) ∈ n.places ↔ n.Stands path e) ∧
    (∀ e, find? tag n = some e ↔ e.tag = tag ∧ ∃ path, n.Stands path e ∧
      ∀ path' e', n.Stands path' e' → path' < path → e'.tag ≠ tag) ∧
    (find? tag n = none ↔ ∀ path e, n.Stands path e → e.tag ≠ tag) := by
  refine ⟨find?_eq tag n, ⟨(map_snd_places n).symm, pairwise_places n, mem_places n⟩, ?_, ?_⟩
  · intro e
    rw [find?_eq, ← map_snd_places, find?_eq_some_iff_least (pairwise_places n)]
    simp only [mem_places, beq_iff_eq, beq_eq_false_iff_ne]
  · rw [find?_eq, ← map_snd_places, List.find?_eq_none]
    simp only [List.mem_map, Prod.exists, mem_places, beq_iff_eq, exists_eq_right]
    exact ⟨fun absent path e stands => absent e ⟨path, stands⟩,
      fun absent e ⟨path, stands⟩ => absent path e stands⟩

/-- What is below the first child comes before the second child. -/
example :
    find? "input" (.fragment [.element "div" .empty none [.element "input" .empty none []],
      .element "input" .empty none [.text "b"]] : Node Unit) =
      some ⟨"input", .empty, none, []⟩ := rfl

end Node

end Formwork
