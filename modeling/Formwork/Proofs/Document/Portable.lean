import Formwork.Document.Toml
import Mathlib.Data.List.Nodup

/-!
# Portable values

Values that both document formats can express: truth values, signed 64-bit integers, texts, arrays
and tables. `sorted` is the value with the members of every table sorted by key.
-/

namespace Formwork

namespace Toml

theorem sortMembers_perm (members : Entries Value) : (sortMembers members).Perm members :=
  List.mergeSort_perm _ _

theorem pairwise_sortMembers (members : Entries Value) :
    (sortMembers members).Pairwise fun a b => a.1 ≤ b.1 := by
  have ascending : (sortMembers members).Pairwise fun a b => decide (a.1 ≤ b.1) = true :=
    List.pairwise_mergeSort
      (fun a b c ab bc => by simpa using String.le_trans (by simpa using ab) (by simpa using bc))
      (fun a b => by simpa using String.le_total a.1 b.1) members
  exact ascending.imp of_decide_eq_true

theorem sortMembers_eq {members ordered : Entries Value} (perm : members.Perm ordered)
    (ascending : (Entries.keys ordered).Pairwise (· ≤ ·))
    (distinct : (Entries.keys ordered).Nodup) : sortMembers members = ordered := by
  have same := (sortMembers_perm members).trans perm
  refine List.Perm.eq_of_pairwise ?_ (pairwise_sortMembers members)
    (List.pairwise_map.1 ascending) same
  intro a b a_mem b_mem ab ba
  exact List.inj_on_of_nodup_map distinct (same.mem_iff.1 a_mem) b_mem (String.le_antisymm ab ba)

end Toml

namespace Value

/-- A value with at most `depth` nested containers that both formats can express: keys are distinct,
and no table starts with the reserved key of dates and times. -/
inductive Portable : (depth : Nat) → Value → Prop where
  | bool (depth : Nat) (b : Bool) : Portable depth (.bool b)
  | integer (depth : Nat) (n : Int) (inRange : -9223372036854775808 ≤ n ∧ n < 18446744073709551616)
      (signed : n < 9223372036854775808) : Portable depth (.number (.integer n inRange))
  | string (depth : Nat) (s : String) : Portable depth (.string s)
  | array {depth : Nat} {items : List Value} (each : ∀ v ∈ items, Portable depth v) :
      Portable (depth + 1) (.array items)
  | object {depth : Nat} {members : Entries Value} (distinct : (Entries.keys members).Nodup)
      (unmarked : (Entries.keys members).head? ≠ some Toml.dateTimeKey)
      (each : ∀ m ∈ members, Portable depth m.2) : Portable (depth + 1) (.object members)

/-- A value in which the keys of every table ascend. -/
inductive Ascending : Value → Prop where
  | bool (b : Bool) : Ascending (.bool b)
  | number (n : Number) : Ascending (.number n)
  | string (s : String) : Ascending (.string s)
  | array {items : List Value} (each : ∀ v ∈ items, Ascending v) : Ascending (.array items)
  | object {members : Entries Value} (keys : (Entries.keys members).Pairwise (· ≤ ·))
      (each : ∀ m ∈ members, Ascending m.2) : Ascending (.object members)

mutual

/-- The value with the members of every table in it sorted by key. -/
def sorted : Value → Value
  | .array items => .array (sortedItems items)
  | .object members => .object (Toml.sortMembers (sortedMembers members))
  | v => v

def sortedItems : List Value → List Value
  | [] => []
  | v :: rest => v.sorted :: sortedItems rest

def sortedMembers : Entries Value → Entries Value
  | [] => []
  | (key, v) :: rest => (key, v.sorted) :: sortedMembers rest

end

theorem sortedItems_eq_map (items : List Value) : sortedItems items = items.map sorted := by
  induction items with
  | nil => rfl
  | cons v rest ih => rw [sortedItems, ih, List.map_cons]

theorem sortedMembers_eq_map (members : Entries Value) :
    sortedMembers members = members.map fun m => (m.1, m.2.sorted) := by
  induction members with
  | nil => rfl
  | cons m rest ih => rw [sortedMembers, ih, List.map_cons]

theorem sortedItems_eq_self_iff {items : List Value} :
    sortedItems items = items ↔ ∀ v ∈ items, v.sorted = v := by
  have pointwise := List.map_inj_left (l := items) (f := sorted) (g := id)
  rwa [List.map_id, ← sortedItems_eq_map] at pointwise

theorem sortedMembers_eq_self_iff {members : Entries Value} :
    sortedMembers members = members ↔ ∀ m ∈ members, m.2.sorted = m.2 := by
  have pointwise := List.map_inj_left (l := members) (f := fun m => (m.1, m.2.sorted)) (g := id)
  rw [List.map_id, ← sortedMembers_eq_map] at pointwise
  simpa [Prod.ext_iff] using pointwise

theorem keys_sortedMembers (members : Entries Value) :
    Entries.keys (sortedMembers members) = Entries.keys members := by
  rw [sortedMembers_eq_map, Entries.keys, List.map_map]
  rfl

theorem keys_sortMembers_perm (members : Entries Value) :
    (Entries.keys (Toml.sortMembers (sortedMembers members))).Perm (Entries.keys members) :=
  keys_sortedMembers members ▸ (Toml.sortMembers_perm _).map Prod.fst

theorem Portable.sorted_eq_self_iff {depth : Nat} {v : Value} (portable : v.Portable depth) :
    v.sorted = v ↔ v.Ascending := by
  induction portable with
  | bool depth b => exact ⟨fun _ => .bool b, fun _ => rfl⟩
  | integer depth n inRange signed => exact ⟨fun _ => .number _, fun _ => rfl⟩
  | string depth s => exact ⟨fun _ => .string s, fun _ => rfl⟩
  | @array depth items each ih =>
      rw [sorted, Value.array.injEq, sortedItems_eq_self_iff]
      constructor
      · exact fun same => .array fun v mem => (ih v mem).1 (same v mem)
      · rintro (_ | _ | _ | ascending) v mem
        exact (ih v mem).2 (ascending v mem)
  | @object depth members distinct unmarked each ih =>
      rw [sorted, Value.object.injEq]
      constructor
      · intro same
        have keys : (Entries.keys members).Pairwise (· ≤ ·) := by
          rw [← same]
          exact List.pairwise_map.2 (Toml.pairwise_sortMembers _)
        have in_place : Toml.sortMembers (sortedMembers members) = sortedMembers members :=
          Toml.sortMembers_eq (.refl _) (by rwa [keys_sortedMembers])
            (by rwa [keys_sortedMembers])
        have each_same := sortedMembers_eq_self_iff.1 (in_place.symm.trans same)
        exact .object keys fun m mem => (ih m mem).1 (each_same m mem)
      · rintro (_ | _ | _ | _ | ⟨keys, ascending⟩)
        have each_same : sortedMembers members = members :=
          sortedMembers_eq_self_iff.2 fun m mem => (ih m mem).2 (ascending m mem)
        rw [each_same]
        exact Toml.sortMembers_eq (.refl _) keys distinct

end Value

end Formwork
