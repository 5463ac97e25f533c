import Formwork.Context

/-!
# Merging as a union

The keys of a merged context are those of both sides, its values follow the winning side and its
order the losing one; merging is associative.
-/

namespace Formwork

variable {α : Type}

namespace Entries

theorem eq_of_keys_of_get? {entries entries' : Entries α} (distinct : (keys entries).Nodup)
    (same_keys : keys entries = keys entries')
    (same_values : ∀ key, get? key entries = get? key entries') : entries = entries' := by
  induction entries generalizing entries' with
  | nil =>
      cases entries' with
      | nil => rfl
      | cons entry rest => cases same_keys
  | cons entry rest ih =>
      cases entries' with
      | nil => cases same_keys
      | cons entry' rest' =>
          obtain ⟨key, value⟩ := entry
          obtain ⟨key', value'⟩ := entry'
          rw [keys_cons, keys_cons, List.cons_eq_cons] at same_keys
          obtain ⟨rfl, rest_keys⟩ := same_keys
          rw [keys_cons, List.nodup_cons] at distinct
          obtain ⟨new, rest_distinct⟩ := distinct
          have same_value : value = value' := by
            simpa [get?] using same_values key
          have rest_values (k : String) : get? k rest = get? k rest' := by
            by_cases here : key = k
            · -- The first key does not come again on either side.
              subst here
              have new' : key ∉ keys rest' := rest_keys ▸ new
              rw [get?_eq_none_iff.2 new, get?_eq_none_iff.2 new']
            · simpa [get?, here] using same_values k
          rw [same_value, ih rest_distinct rest_keys rest_values]

theorem keys_insertAll {entries more : Entries α} (distinct : (keys more).Nodup) :
    keys (insertAll entries more) =
      keys entries ++ (keys more).filter fun key => key ∉ keys entries := by
  induction more generalizing entries with
  | nil => simp [insertAll]
  | cons entry rest ih =>
      obtain ⟨key, value⟩ := entry
      rw [keys_cons, List.nodup_cons] at distinct
      obtain ⟨new, rest_distinct⟩ := distinct
      change keys (insertAll (insert key value entries) rest) = _
      rw [ih rest_distinct, keys_insert, keys_cons, List.filter_cons]
      by_cases known : key ∈ keys entries
      · simp [known]
      · have others : (keys rest).filter (fun k => k ∉ keys entries ++ [key]) =
            (keys rest).filter fun k => k ∉ keys entries :=
          List.filter_congr fun k mem => by
            have other : k ≠ key := fun same => new (same ▸ mem)
            simp [other]
        rw [if_neg known, others]
        simp [known]

theorem get?_insertAll {entries more : Entries α} (distinct : (keys more).Nodup) (key : String) :
    get? key (insertAll entries more) = (get? key more).or (get? key entries) := by
  induction more generalizing entries with
  | nil => rfl
  | cons entry rest ih =>
      obtain ⟨k, value⟩ := entry
      rw [keys_cons, List.nodup_cons] at distinct
      obtain ⟨new, rest_distinct⟩ := distinct
      change get? key (insertAll (insert k value entries) rest) = _
      rw [ih rest_distinct, get?_insert, get?]
      by_cases here : k = key
      · subst here
        simp [get?_eq_none_iff.2 new]
      · simp [here]

end Entries

namespace Record

variable {a b c : Record α}

theorem eq_of_keys_of_get? (same_keys : a.keys = b.keys)
    (same_values : ∀ key, a.get? key = b.get? key) : a = b :=
  ext (Entries.eq_of_keys_of_get? a.distinct same_keys same_values)

theorem keys_insertAll (a b : Record α) :
    (a.insertAll b.entries).keys = a.keys ++ b.keys.filter fun key => key ∉ a.keys :=
  Entries.keys_insertAll b.distinct

theorem get?_insertAll (a b : Record α) (key : String) :
    (a.insertAll b.entries).get? key = (b.get? key).or (a.get? key) :=
  Entries.get?_insertAll b.distinct key

theorem mem_keys_insertAll {key : String} :
    key ∈ (a.insertAll b.entries).keys ↔ key ∈ a.keys ∨ key ∈ b.keys := by
  rw [keys_insertAll, List.mem_append, List.mem_filter]
  by_cases known : key ∈ a.keys <;> simp [known]

theorem insertAll_insertAll (a b c : Record α) :
    (a.insertAll b.entries).insertAll c.entries =
      a.insertAll (b.insertAll c.entries).entries := by
  refine eq_of_keys_of_get? ?_ fun key => ?_
  · have new_keys : c.keys.filter (fun key => key ∉ a.keys ++ b.keys.filter fun k => k ∉ a.keys) =
        (c.keys.filter fun key => key ∉ b.keys).filter fun key => key ∉ a.keys := by
      rw [List.filter_filter]
      refine List.filter_congr fun key _ => ?_
      by_cases known : key ∈ a.keys <;> simp [known]
    rw [keys_insertAll, keys_insertAll, keys_insertAll, keys_insertAll, List.filter_append,
      List.append_assoc, new_keys]
  · rw [get?_insertAll, get?_insertAll, get?_insertAll, get?_insertAll, Option.or_assoc]

end Record

namespace Precedence

/-- The side whose values are kept on shared keys. -/
def winner (precedence : Precedence) (live data : Props) : Props :=
  match precedence with
  | .dataSource => data
  | .liveValues => live

def loser (precedence : Precedence) (live data : Props) : Props :=
  match precedence with
  | .dataSource => live
  | .liveValues => data

end Precedence

namespace Context

theorem merge_values (live data : Props) (precedence : Precedence) :
    (merge live data precedence).values =
      (precedence.loser live data).insertAll (precedence.winner live data).entries := by
  cases precedence <;> rfl

theorem mem_keys_merge {live data : Props} {precedence : Precedence} {key : String} :
    key ∈ (merge live data precedence).values.keys ↔ key ∈ live.keys ∨ key ∈ data.keys := by
  rw [merge_values, Record.mem_keys_insertAll]
  cases precedence with
  | dataSource => rfl
  | liveValues => exact or_comm

theorem merge_assoc (a b c : Props) (precedence : Precedence) :
    merge (merge a b precedence).values c precedence =
      merge a (merge b c precedence).values precedence := by
  cases precedence with
  | dataSource => exact congrArg Context.mk (Record.insertAll_insertAll a b c)
  | liveValues => exact congrArg Context.mk (Record.insertAll_insertAll c b a).symm

theorem merge_empty_right (live : Props) (precedence : Precedence) :
    merge live .empty precedence = ⟨live⟩ := by
  cases precedence with
  | dataSource => rfl
  | liveValues => exact congrArg Context.mk (Record.empty_insertAll live)

/-- Merging is a biased union. The context has each key of either side once, with the winner's value
where the winner has one; the loser's keys come first and then the keys of the winner alone, on each
side in their order. Swapping the sides together with the precedence gives the same. For a fixed
precedence merging is associative, with the empty record as unit. -/
theorem merge_biased_union :
    (∀ (precedence : Precedence) (live data : Props),
      let merged := (merge live data precedence).values
      let winner := precedence.winner live data
      let loser := precedence.loser live data
      (∀ key, merged.keys.count key = if key ∈ live.keys ∨ key ∈ data.keys then 1 else 0) ∧
      (∀ key, merged.get? key = (winner.get? key).or (loser.get? key)) ∧
      merged.keys = loser.keys ++ winner.keys.filter fun key => key ∉ loser.keys) ∧
    (∀ live data : Props, merge live data .dataSource = merge data live .liveValues) ∧
    ∀ precedence : Precedence,
      (∀ a b c : Props, merge (merge a b precedence).values c precedence =
        merge a (merge b c precedence).values precedence) ∧
      ∀ a : Props, merge .empty a precedence = ⟨a⟩ ∧ merge a .empty precedence = ⟨a⟩ := by
  refine ⟨fun precedence live data => ?_, fun live data => rfl, fun precedence =>
    ⟨fun a b c => merge_assoc a b c precedence,
      fun a => ⟨merge_empty a precedence, merge_empty_right a precedence⟩⟩⟩
  intro merged winner loser
  have merged_eq : merged = loser.insertAll winner.entries := merge_values live data precedence
  refine ⟨fun key => ?_, fun key => ?_, ?_⟩
  · have once : merged.keys.Nodup := merged.distinct
    simp only [once.count, merged, mem_keys_merge]
  · rw [merged_eq, Record.get?_insertAll]
  · rw [merged_eq, Record.keys_insertAll]

end Context

end Formwork
