import Formwork.Node

/-!
# Escaped texts

The three replacements in sequence equal one simultaneous replacement. Escaped texts contain no
angle brackets and can be read back.
-/

namespace Formwork.Node

def entity (c : Char) : List Char :=
  if c = '&' then ['&', 'a', 'm', 'p', ';']
  else if c = '<' then ['&', 'l', 't', ';']
  else if c = '>' then ['&', 'g', 't', ';']
  else [c]

/-- The inverse of `escape`: an ampersand must start an entity, and brackets are refused. -/
def unescape? : List Char → Option (List Char)
  | [] => some []
  | '&' :: 'a' :: 'm' :: 'p' :: ';' :: rest => (unescape? rest).map ('&' :: ·)
  | '&' :: 'l' :: 't' :: ';' :: rest => (unescape? rest).map ('<' :: ·)
  | '&' :: 'g' :: 't' :: ';' :: rest => (unescape? rest).map ('>' :: ·)
  | c :: rest => if c ∈ ['&', '<', '>'] then none else (unescape? rest).map (c :: ·)

theorem entity_of_plain {c : Char} (plain : c ∉ ['&', '<', '>']) : entity c = [c] := by
  simp only [List.mem_cons, List.not_mem_nil, or_false, not_or] at plain
  rw [entity, if_neg plain.1, if_neg plain.2.1, if_neg plain.2.2]

/-- The replacements in sequence equal one simultaneous replacement. -/
theorem toList_escape (t : String) : (escape t).toList = t.toList.flatMap entity := by
  have each (c : Char) :
      ((if c = '&' then "&amp;".toList else [c]).flatMap fun d =>
        (if d = '<' then "&lt;".toList else [d]).flatMap fun d =>
          if d = '>' then "&gt;".toList else [d]) = entity c := by
    by_cases special : c ∈ ['&', '<', '>']
    · simp only [List.mem_cons, List.not_mem_nil, or_false] at special
      rcases special with rfl | rfl | rfl <;> rfl
    · rw [entity_of_plain special]
      simp only [List.mem_cons, List.not_mem_nil, or_false, not_or] at special
      simp [special]
  rw [escape, String.toList_ofList, replaceChar, replaceChar, replaceChar, List.flatMap_assoc,
    List.flatMap_assoc]
  simp only [each]

theorem not_mem_entity {c d : Char} (bracket : d = '<' ∨ d = '>') : d ∉ entity c := by
  unfold entity
  split
  · rcases bracket with rfl | rfl <;> decide
  split
  · rcases bracket with rfl | rfl <;> decide
  split
  · rcases bracket with rfl | rfl <;> decide
  · rintro mem
    obtain rfl := List.mem_singleton.1 mem
    rcases bracket with rfl | rfl <;> contradiction

theorem not_mem_escaped {d : Char} (bracket : d = '<' ∨ d = '>') (cs : List Char) :
    d ∉ cs.flatMap entity := by
  intro mem
  obtain ⟨c, -, here⟩ := List.mem_flatMap.1 mem
  exact not_mem_entity bracket here

theorem unescape?_entity (c : Char) (rest : List Char) :
    unescape? (entity c ++ rest) = (unescape? rest).map (c :: ·) := by
  by_cases special : c ∈ ['&', '<', '>']
  · simp only [List.mem_cons, List.not_mem_nil, or_false] at special
    rcases special with rfl | rfl | rfl <;> rfl
  · have other : c ≠ '&' := fun same => special (same ▸ List.mem_cons_self)
    rw [entity_of_plain special, List.singleton_append]
    conv => lhs; unfold unescape?
    split <;> simp_all

theorem unescape?_escaped (cs : List Char) : unescape? (cs.flatMap entity) = some cs := by
  induction cs with
  | nil => rfl
  | cons c rest ih => rw [List.flatMap_cons, unescape?_entity, ih, Option.map_some]

/-- `unescape?` inverts `escape`, and accepts escaped texts only. -/
theorem unescape?_eq_some_iff {text cs : List Char} :
    unescape? text = some cs ↔ text = cs.flatMap entity := by
  refine ⟨fun read => ?_, fun escaped => escaped ▸ unescape?_escaped cs⟩
  fun_induction unescape? text generalizing cs with
  | case1 =>
      cases read
      rfl
  | case2 rest ih | case3 rest ih | case4 rest ih =>
      obtain ⟨more, rest_read, rfl⟩ := Option.map_eq_some_iff.1 read
      rw [ih rest_read, List.flatMap_cons]
      rfl
  | case5 => cases read
  | case6 c rest _ _ _ plain ih =>
      obtain ⟨more, rest_read, rfl⟩ := Option.map_eq_some_iff.1 read
      rw [ih rest_read, List.flatMap_cons, entity_of_plain plain, List.singleton_append]

theorem escaped_injective {cs cs' : List Char} (same : cs.flatMap entity = cs'.flatMap entity) :
    cs = cs' := by
  have read := unescape?_escaped cs
  rw [same, unescape?_escaped] at read
  exact (Option.some.inj read).symm

end Formwork.Node
