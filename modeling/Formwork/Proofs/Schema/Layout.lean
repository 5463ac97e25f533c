import Formwork.Proofs.Schema.ItemSpec

/-!
# Layouts of an item

Decoding an object depends on its four keys only, in any order, and decoding a list agrees with
decoding the object of its values.
-/

namespace Formwork

namespace Entries

variable {α : Type} {key : String} {entries entries' extra : Entries α}

theorem nodup_keys_of_perm_append (distinct : (keys entries').Nodup)
    (perm : entries'.Perm (entries ++ extra)) : (keys entries).Nodup := by
  have distinct_all : (keys (entries ++ extra)).Nodup := (perm.map Prod.fst).nodup_iff.1 distinct
  rw [keys, List.map_append] at distinct_all
  exact distinct_all.of_append_left

theorem get?_of_perm_append (distinct : (keys entries').Nodup)
    (perm : entries'.Perm (entries ++ extra)) (other : key ∉ keys extra) :
    get? key entries' = get? key entries := by
  have distinct_entries := nodup_keys_of_perm_append distinct perm
  refine Option.ext fun value => ?_
  rw [get?_eq_some_iff distinct, get?_eq_some_iff distinct_entries, perm.mem_iff, List.mem_append]
  exact or_iff_left fun mem => other (List.mem_map_of_mem mem)

end Entries

theorem Decode.bind_eq_ok_iff {α β : Type} {x : Except DecodeError α}
    {f : α → Except DecodeError β} {b : β} :
    x >>= f = .ok b ↔ ∃ a, x = .ok a ∧ f a = .ok b := by
  cases x with
  | ok a => exact ⟨fun h => ⟨a, rfl, h⟩, fun ⟨_, rfl, h⟩ => h⟩
  | error e => exact ⟨nofun, fun ⟨_, is_ok, _⟩ => nomatch is_ok⟩

namespace ItemSpec

/-- The keys of an item's document. -/
def names : List String := ["field", "component", "componentProps", "formItemProps"]

/-- The value known for a key after some members: the decoded member, or the previous one. -/
def known {α : Type} (decode : Value → Except DecodeError α) (key : String)
    (members : Entries Value) (before : Option α) : Except DecodeError (Option α) :=
  match Entries.get? key members with
  | some value => (decode value).map some
  | none => .ok before

section Known

variable {α : Type} {decode : Value → Except DecodeError α} {key : String}

theorem known_singleton_self {value : Value} {before after : Option α} :
    known decode key [(key, value)] before = .ok after ↔
      ∃ a, decode value = .ok a ∧ some a = after := by
  simp only [known, Entries.get?, if_true]
  cases decode value <;> simp [Except.map]

theorem known_singleton_of_ne {name : String} {value : Value} {before after : Option α}
    (ne : name ≠ key) :
    known decode key [(name, value)] before = .ok after ↔ before = after := by
  simp [known, Entries.get?, ne]

theorem known_cons {name : String} {value : Value} {rest : Entries Value}
    (new : name ∉ Entries.keys rest) {before after : Option α} :
    known decode key ((name, value) :: rest) before = .ok after ↔
      ∃ mid, known decode key [(name, value)] before = .ok mid ∧
        known decode key rest mid = .ok after := by
  by_cases here : name = key
  · subst here
    simp [known, Entries.get?, Entries.get?_eq_none_iff.2 new]
  · simp [known, Entries.get?, here]

end Known

/-- After the members, each field is as `known` gives it. -/
structure Collected.Gathers (acc : Collected) (members : Entries Value) (acc' : Collected) :
    Prop where
  field : known Decode.text "field" members acc.field = .ok acc'.field
  component : known Decode.text "component" members acc.component = .ok acc'.component
  componentProps :
    known Decode.props "componentProps" members acc.componentProps = .ok acc'.componentProps
  formItemProps :
    known Decode.optionalProps "formItemProps" members acc.formItemProps = .ok acc'.formItemProps

namespace Collected

variable {acc acc' : Collected}

theorem gathers_iff {members : Entries Value} :
    acc.Gathers members acc' ↔
      known Decode.text "field" members acc.field = .ok acc'.field ∧
      known Decode.text "component" members acc.component = .ok acc'.component ∧
      known Decode.props "componentProps" members acc.componentProps = .ok acc'.componentProps ∧
      known Decode.optionalProps "formItemProps" members acc.formItemProps =
        .ok acc'.formItemProps :=
  ⟨fun h => ⟨h.field, h.component, h.componentProps, h.formItemProps⟩,
    fun ⟨field, component, componentProps, formItemProps⟩ =>
      ⟨field, component, componentProps, formItemProps⟩⟩

theorem put_eq_ok_iff {key : String} {value : Value} :
    acc.put key value = .ok acc' ↔ acc.Gathers [(key, value)] acc' := by
  obtain ⟨field, component, componentProps, formItemProps⟩ := acc
  obtain ⟨field', component', componentProps', formItemProps'⟩ := acc'
  unfold put
  rw [gathers_iff]
  split_ifs with is_field is_component is_componentProps is_formItemProps
  case neg =>
    simp [known_singleton_of_ne, is_field, is_component, is_componentProps, is_formItemProps]
  -- Under a name, one slot is written and the three others stay.
  all_goals
    subst key
    simp only [Decode.bind_eq_ok_iff, known_singleton_self, known_singleton_of_ne, ne_eq,
      String.reduceEq, not_false_eq_true, pure, Except.pure, Except.ok.injEq, mk.injEq]
    grind

theorem putAll_eq_ok_iff {members : Entries Value} (distinct : (Entries.keys members).Nodup) :
    acc.putAll members = .ok acc' ↔ acc.Gathers members acc' := by
  induction members generalizing acc with
  | nil =>
      obtain ⟨field, component, componentProps, formItemProps⟩ := acc
      obtain ⟨field', component', componentProps', formItemProps'⟩ := acc'
      simp [putAll, gathers_iff, known, Entries.get?]
  | cons member rest ih =>
      obtain ⟨key, value⟩ := member
      obtain ⟨new, rest_distinct⟩ := List.nodup_cons.1 distinct
      rw [putAll, Decode.bind_eq_ok_iff, gathers_iff, known_cons new, known_cons new,
        known_cons new, known_cons new]
      constructor
      · rintro ⟨mid, put, rest_put⟩
        have here := put_eq_ok_iff.1 put
        have behind := (ih rest_distinct).1 rest_put
        exact ⟨⟨_, here.field, behind.field⟩, ⟨_, here.component, behind.component⟩,
          ⟨_, here.componentProps, behind.componentProps⟩,
          ⟨_, here.formItemProps, behind.formItemProps⟩⟩
      · rintro ⟨⟨field, here₁, behind₁⟩, ⟨component, here₂, behind₂⟩,
          ⟨componentProps, here₃, behind₃⟩, ⟨formItemProps, here₄, behind₄⟩⟩
        -- What is known in between under each name makes up what has been collected by then.
        exact ⟨⟨field, component, componentProps, formItemProps⟩,
          put_eq_ok_iff.2 ⟨here₁, here₂, here₃, here₄⟩,
          (ih rest_distinct).2 ⟨behind₁, behind₂, behind₃, behind₄⟩⟩

end Collected

/-- Objects that agree on the four keys decode alike. -/
theorem ofMembers_congr {members members' : Entries Value} {spec : ItemSpec}
    (distinct : (Entries.keys members).Nodup) (distinct' : (Entries.keys members').Nodup)
    (same : ∀ key ∈ names, Entries.get? key members' = Entries.get? key members) :
    ofMembers members' = .ok spec ↔ ofMembers members = .ok spec := by
  simp only [names, List.forall_mem_cons] at same
  obtain ⟨field, component, componentProps, formItemProps, -⟩ := same
  have gathers (acc : Collected) :
      Collected.empty.Gathers members' acc ↔ Collected.empty.Gathers members acc := by
    simp only [Collected.gathers_iff, known, field, component, componentProps, formItemProps]
  simp only [ofMembers, Decode.bind_eq_ok_iff, Collected.putAll_eq_ok_iff distinct,
    Collected.putAll_eq_ok_iff distinct', gathers]

theorem ofItems_eq_ofMembers {items : List Value} (required : 2 ≤ items.length)
    (no_more : items.length ≤ 4) : ofItems items = ofMembers (names.zip items) := by
  rcases items with _ | ⟨field, _ | ⟨component, _ | ⟨componentProps, _ | ⟨formItemProps, _ | _⟩⟩⟩⟩
  case nil | cons.nil | cons.cons.cons.cons.cons =>
    simp only [List.length_nil, List.length_cons] at required no_more
    omega
  -- The two required values are decoded the same way, and then what there is of the others.
  all_goals
    simp only [ofItems, ofMembers, names, List.zip_cons_cons, List.zip_nil_right,
      Collected.putAll, Collected.put, if_true, String.reduceEq, if_false]
    cases Decode.text field
    · rfl
    cases Decode.text component
    · rfl
  · rfl
  · cases Decode.props componentProps <;> rfl
  · cases Decode.props componentProps
    · rfl
    cases Decode.optionalProps formItemProps <;> rfl

/-- Decoding inverts encoding on every layout. An item decodes from its own document; from an object
with its members permuted and unknown ones added; and from the list of its members' values, of which
the last one or two may be absent. -/
theorem decode_any_layout :
    (∀ spec : ItemSpec, ofValue spec.toValue = .ok spec) ∧
    (∀ (members members' extra : Entries Value) (spec : ItemSpec),
      (Entries.keys members').Nodup → members'.Perm (members ++ extra) →
      (∀ key ∈ Entries.keys extra, key ∉ names) →
      (ofValue (.object members') = .ok spec ↔ ofValue (.object members) = .ok spec)) ∧
    ∀ items : List Value, 2 ≤ items.length → items.length ≤ 4 →
      ofValue (.array items) = ofValue (.object (names.zip items)) := by
  refine ⟨ofValue_toValue, fun members members' extra spec distinct perm unknown => ?_,
    fun items => ofItems_eq_ofMembers⟩
  have distinct_members := Entries.nodup_keys_of_perm_append distinct perm
  refine ofMembers_congr distinct_members distinct fun key is_name => ?_
  exact Entries.get?_of_perm_append distinct perm fun mem => unknown key mem is_name

end ItemSpec

namespace Sample

open ItemSpec

def labelled : Props := .ofList [("label", .string "Age")]

/-- The members in reverse with an unknown one added, and a list. -/
theorem decode_any_layout_shuffled :
    ofValue (.object [("note", .null), ("formItemProps", .ofProps labelled),
      ("componentProps", .ofProps .empty), ("component", .string "NumberInput"),
      ("field", .string "age")]) = .ok ⟨"age", "NumberInput", .empty, some labelled⟩ ∧
    ofValue (.array [.string "age", .string "NumberInput"]) =
      .ok ⟨"age", "NumberInput", .empty, none⟩ := by
  obtain ⟨undone, relaid, listed⟩ := decode_any_layout
  let spec : ItemSpec := ⟨"age", "NumberInput", .empty, some labelled⟩
  have written : ofValue (.object spec.members) = .ok spec :=
    spec.toValue_eq_object ▸ undone spec
  refine ⟨(relaid spec.members _ [("note", .null)] spec (by decide) ?_ (by decide)).2 written, ?_⟩
  · exact ((List.reverse_perm spec.members).cons _).trans (List.perm_append_singleton _ _).symm
  · rw [listed _ (by decide) (by decide)]
    rfl

end Sample

end Formwork
