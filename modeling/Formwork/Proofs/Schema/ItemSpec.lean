import Formwork.Proofs.Document.Portable
import Formwork.Schema.ItemSpec

/-!
# Items in both formats

An item decodes from its members in written and in sorted order; the two differ in the order of the
props only.
-/

namespace Formwork

def Props.sorted (props : Props) : Props :=
  ⟨Toml.sortMembers (Value.sortedMembers props.entries),
    (Value.keys_sortMembers_perm props.entries).nodup_iff.2 props.distinct⟩

theorem Props.sorted_ofProps (props : Props) :
    (Value.ofProps props).sorted = .ofProps props.sorted := rfl

theorem Props.sorted_eq_self_iff {depth : Nat} {props : Props}
    (portable : (Value.ofProps props).Portable depth) :
    props.sorted = props ↔ (Value.ofProps props).Ascending := by
  rw [← portable.sorted_eq_self_iff, Props.sorted_ofProps, Value.ofProps, Value.ofProps,
    Value.object.injEq]
  exact ⟨congrArg _, Record.ext⟩

namespace ItemSpec

def members (s : ItemSpec) : Entries Value :=
  [("field", .string s.field), ("component", .string s.component),
    ("componentProps", .ofProps s.componentProps)] ++
    (s.formItemProps.map fun props => ("formItemProps", Value.ofProps props)).toList

theorem toValue_eq_object (s : ItemSpec) : s.toValue = .object s.members := by
  rcases s with ⟨field, component, componentProps, _ | formItemProps⟩ <;> rfl

/-- The item's props are expressible in both formats. -/
structure Portable (s : ItemSpec) : Prop where
  componentProps : (Value.ofProps s.componentProps).Portable 79
  formItemProps : ∀ props ∈ s.formItemProps, (Value.ofProps props).Portable 79

/-- The keys of the item's props ascend, also inside values. -/
structure Ascending (s : ItemSpec) : Prop where
  componentProps : (Value.ofProps s.componentProps).Ascending
  formItemProps : ∀ props ∈ s.formItemProps, (Value.ofProps props).Ascending

def sorted (s : ItemSpec) : ItemSpec :=
  { s with
    componentProps := s.componentProps.sorted
    formItemProps := s.formItemProps.map Props.sorted }

variable {s : ItemSpec}

theorem Portable.sorted_eq_self_iff (portable : s.Portable) : s.sorted = s ↔ s.Ascending := by
  have props := Props.sorted_eq_self_iff portable.componentProps
  rcases s with ⟨field, component, componentProps, _ | formItemProps⟩
  · simp only [sorted, ItemSpec.mk.injEq, true_and, Option.map_none, and_true, props]
    exact ⟨fun ascending => ⟨ascending, nofun⟩, Ascending.componentProps⟩
  · have more := Props.sorted_eq_self_iff (portable.formItemProps formItemProps rfl)
    simp only [sorted, ItemSpec.mk.injEq, true_and, Option.map_some, Option.some.injEq, props, more]
    constructor
    · rintro ⟨ascending, more_ascending⟩
      exact ⟨ascending, by rintro _ ⟨⟩; exact more_ascending⟩
    · exact fun ascending => ⟨ascending.componentProps, ascending.formItemProps _ rfl⟩

theorem Portable.members (portable : s.Portable) : ∀ m ∈ s.members, m.2.Portable 79 := by
  have required : ∀ m ∈ [("field", Value.string s.field), ("component", .string s.component),
      ("componentProps", .ofProps s.componentProps)], m.2.Portable 79 := by
    simp only [List.forall_mem_cons]
    exact ⟨.string 79 _, .string 79 _, portable.componentProps, nofun⟩
  refine List.forall_mem_append.2 ⟨required, fun m mem => ?_⟩
  obtain ⟨props, mem_props, rfl⟩ := Option.map_eq_some_iff.1 (Option.mem_toList.1 mem)
  exact portable.formItemProps props mem_props

theorem nodup_keys_members (s : ItemSpec) : (Entries.keys s.members).Nodup := by
  rcases s with ⟨field, component, componentProps, _ | formItemProps⟩
  · exact (by decide : ["field", "component", "componentProps"].Nodup)
  · exact (by decide : ["field", "component", "componentProps", "formItemProps"].Nodup)

theorem head_keys_members (s : ItemSpec) :
    (Entries.keys s.members).head? ≠ some Toml.dateTimeKey := by
  exact (by decide : some "field" ≠ some Toml.dateTimeKey)

theorem Portable.toValue (portable : s.Portable) : s.toValue.Portable 80 := by
  rw [toValue_eq_object]
  exact .object s.nodup_keys_members s.head_keys_members portable.members

theorem decode_ofProps (props : Props) : Decode.props (.ofProps props) = .ok props :=
  congrArg Except.ok (Record.empty_insertAll props)

theorem decode_optional_ofProps (props : Props) :
    Decode.optionalProps (.ofProps props) = .ok (some props) :=
  congrArg (Except.map some) (decode_ofProps props)

theorem ofValue_toValue (s : ItemSpec) : ofValue s.toValue = .ok s := by
  rcases s with ⟨field, component, componentProps, _ | formItemProps⟩
  all_goals
    simp [toValue, ofValue, ofMembers, Collected.putAll, Collected.put, Decode.text,
      decode_ofProps, decode_optional_ofProps]
    rfl

/-- The field's name goes behind the component's props. -/
theorem sortMembers_members (s : ItemSpec) :
    Toml.sortMembers (Value.sortedMembers s.members) =
      [("component", .string s.component), ("componentProps", .ofProps s.componentProps.sorted),
        ("field", .string s.field)] ++
        (s.formItemProps.map fun props => ("formItemProps", Value.ofProps props.sorted)).toList := by
  have moved (a b c : String × Value) (rest : Entries Value) :
      ([a, b, c] ++ rest).Perm ([b, c, a] ++ rest) :=
    (List.perm_append_singleton a [b, c]).symm.append_right rest
  rcases s with ⟨field, component, componentProps, _ | formItemProps⟩
  · refine Toml.sortMembers_eq (moved _ _ _ []) ?_ ?_
    · exact (by decide : ["component", "componentProps", "field"].Pairwise (· ≤ ·))
    · exact (by decide : ["component", "componentProps", "field"].Nodup)
  · refine Toml.sortMembers_eq (moved _ _ _ [_]) ?_ ?_
    · exact (by decide :
        ["component", "componentProps", "field", "formItemProps"].Pairwise (· ≤ ·))
    · exact (by decide : ["component", "componentProps", "field", "formItemProps"].Nodup)

/-- Decoding is independent of the order of the members. -/
theorem ofValue_sorted (s : ItemSpec) : ofValue s.toValue.sorted = .ok s.sorted := by
  rw [toValue_eq_object, Value.sorted, sortMembers_members]
  rcases s with ⟨field, component, componentProps, _ | formItemProps⟩
  all_goals
    simp [ofValue, ofMembers, Collected.putAll, Collected.put, Decode.text, decode_ofProps,
      decode_optional_ofProps]
    rfl

end ItemSpec

end Formwork
