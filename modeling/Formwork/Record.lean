/-!
# Records

Ordered records with distinct keys. Writing a present key keeps its place, and a new key goes last.
`Entries` is the bare list, `Record` the list with the proof that its keys are distinct.
-/

namespace Formwork

/-- An ordered list of keyed values. -/
abbrev Entries (α : Type) := List (String × α)

theorem eraseDups_concat (names : List String) (name : String) :
    (names ++ [name]).eraseDups =
      if name ∈ names then names.eraseDups else names.eraseDups ++ [name] := by
  rw [List.eraseDups_append]
  by_cases known : name ∈ names
  · simp [List.removeAll, known]
  · simp [List.removeAll, known, List.eraseDups_cons]

theorem eraseDups_of_nodup {names : List String} (distinct : names.Nodup) :
    names.eraseDups = names := by
  induction names with
  | nil => rfl
  | cons name rest ih =>
      obtain ⟨new, rest_distinct⟩ := List.nodup_cons.1 distinct
      have others : rest.filter (fun other => !other == name) = rest := by
        refine List.filter_eq_self.2 fun other mem => ?_
        simpa using fun same : other = name => new (same ▸ mem)
      rw [List.eraseDups_cons, others, ih rest_distinct]

namespace Entries

variable {α β : Type}

def keys (entries : Entries α) : List String := entries.map Prod.fst

def get? (key : String) : Entries α → Option α
  | [] => none
  | (k, v) :: rest => if k = key then some v else get? key rest

def insert (key : String) (value : α) : Entries α → Entries α
  | [] => [(key, value)]
  | (k, v) :: rest => if k = key then (k, value) :: rest else (k, v) :: insert key value rest

def erase (key : String) : Entries α → Entries α
  | [] => []
  | (k, v) :: rest => if k = key then erase key rest else (k, v) :: erase key rest

def insertAll (entries more : Entries α) : Entries α :=
  more.foldl (fun acc entry => insert entry.1 entry.2 acc) entries

@[simp] theorem keys_nil : keys ([] : Entries α) = [] := rfl

@[simp] theorem keys_cons (entry : String × α) (rest : Entries α) :
    keys (entry :: rest) = entry.1 :: keys rest := rfl

theorem get?_nil (key : String) : get? key ([] : Entries α) = none := rfl

theorem get?_cons (key k : String) (v : α) (rest : Entries α) :
    get? key ((k, v) :: rest) = if k = key then some v else get? key rest := rfl

theorem insert_nil (key : String) (value : α) : insert key value [] = [(key, value)] := rfl

theorem insert_cons (key k : String) (value v : α) (rest : Entries α) :
    insert key value ((k, v) :: rest) =
      if k = key then (k, value) :: rest else (k, v) :: insert key value rest := rfl

theorem erase_cons (key k : String) (v : α) (rest : Entries α) :
    erase key ((k, v) :: rest) =
      if k = key then erase key rest else (k, v) :: erase key rest := rfl

theorem mem_keys_insert {key k : String} {value : α} {entries : Entries α} :
    k ∈ keys (insert key value entries) ↔ k = key ∨ k ∈ keys entries := by
  induction entries with
  | nil => simp [insert_nil]
  | cons entry rest ih =>
      rcases entry with ⟨k', v⟩
      by_cases h : k' = key
      · subst h; simp [insert_cons]
      · simp only [insert_cons, h, if_false, keys_cons, List.mem_cons, ih]
        exact ⟨fun hk => hk.elim (fun hl => .inr (.inl hl)) (fun hr => hr.imp_right .inr),
          fun hk => hk.elim (fun hl => .inr (.inl hl)) (fun hr => hr.imp_right .inr)⟩

theorem eq_or_mem_of_mem_insert {key : String} {value : α} {entries : Entries α}
    {entry : String × α} (mem : entry ∈ insert key value entries) :
    entry = (key, value) ∨ entry ∈ entries := by
  induction entries with
  | nil => exact .inl (List.mem_singleton.1 mem)
  | cons first rest ih =>
      obtain ⟨k, v⟩ := first
      rw [insert_cons] at mem
      split at mem
      · next same =>
        exact (List.mem_cons.1 mem).imp (fun head => same ▸ head) (List.mem_cons_of_mem _)
      · rcases List.mem_cons.1 mem with head | behind
        · exact .inr (head ▸ List.mem_cons_self)
        · exact (ih behind).imp_right (List.mem_cons_of_mem _)

theorem nodup_keys_insert {key : String} {value : α} {entries : Entries α}
    (distinct : (keys entries).Nodup) : (keys (insert key value entries)).Nodup := by
  induction entries with
  | nil => simp [insert_nil]
  | cons entry rest ih =>
      rcases entry with ⟨k, v⟩
      simp only [keys_cons, List.nodup_cons] at distinct
      by_cases h : k = key
      · simp [insert_cons, h, List.nodup_cons, h ▸ distinct.1, distinct.2]
      · rw [insert_cons, if_neg h, keys_cons, List.nodup_cons, mem_keys_insert, not_or]
        exact ⟨⟨h, distinct.1⟩, ih distinct.2⟩

/-- The keys of a write: unchanged when the key is present, else the key goes last. -/
theorem keys_insert (key : String) (value : α) (entries : Entries α) :
    keys (insert key value entries) =
      if key ∈ keys entries then keys entries else keys entries ++ [key] := by
  induction entries with
  | nil => simp [insert_nil]
  | cons entry rest ih =>
      rcases entry with ⟨k, v⟩
      by_cases h : k = key
      · subst h; simp [insert_cons]
      · have hne : ¬key = k := fun e => h e.symm
        simp only [insert_cons, h, if_false, keys_cons, ih, List.mem_cons, hne, false_or]
        split <;> rfl

theorem get?_insert (key k : String) (value : α) (entries : Entries α) :
    get? k (insert key value entries) = if key = k then some value else get? k entries := by
  induction entries with
  | nil => simp [insert_nil, get?_cons, get?_nil]
  | cons entry rest ih =>
      rcases entry with ⟨k', v⟩
      by_cases h : k' = key
      · subst h
        by_cases hk : k' = k <;> simp [insert_cons, get?_cons, hk]
      · by_cases hk : k' = k
        · subst hk
          have hne : ¬key = k' := fun e => h e.symm
          simp [insert_cons, get?_cons, h, hne]
        · simp [insert_cons, get?_cons, h, hk, ih]

theorem get?_isSome_iff {key : String} {entries : Entries α} :
    (get? key entries).isSome ↔ key ∈ keys entries := by
  induction entries with
  | nil => simp [get?_nil]
  | cons entry rest ih =>
      rcases entry with ⟨k, v⟩
      by_cases h : k = key
      · simp [get?_cons, h]
      · have hne : ¬key = k := fun e => h e.symm
        simp [get?_cons, h, hne, ih]

theorem get?_eq_none_iff {key : String} {entries : Entries α} :
    get? key entries = none ↔ key ∉ keys entries := by
  rw [← get?_isSome_iff, Option.not_isSome_iff_eq_none]

theorem mem_of_get? {key : String} {value : α} {entries : Entries α}
    (found : get? key entries = some value) : (key, value) ∈ entries := by
  induction entries with
  | nil => cases found
  | cons entry rest ih =>
      obtain ⟨k, v⟩ := entry
      simp only [get?_cons] at found
      split at found
      · next same =>
        cases found
        exact same ▸ List.mem_cons_self
      · exact List.mem_cons_of_mem _ (ih found)

theorem get?_of_mem {key : String} {value : α} {entries : Entries α}
    (distinct : (keys entries).Nodup) (mem : (key, value) ∈ entries) :
    get? key entries = some value := by
  induction entries with
  | nil => cases mem
  | cons entry rest ih =>
      obtain ⟨k, v⟩ := entry
      obtain ⟨new, distinct⟩ := List.nodup_cons.1 distinct
      rcases List.mem_cons.1 mem with same | behind
      · cases same
        exact if_pos rfl
      · have other : k ≠ key := fun same => new (same ▸ List.mem_map.2 ⟨_, behind, rfl⟩)
        rw [get?_cons, if_neg other, ih distinct behind]

theorem get?_eq_some_iff {key : String} {value : α} {entries : Entries α}
    (distinct : (keys entries).Nodup) :
    get? key entries = some value ↔ (key, value) ∈ entries :=
  ⟨mem_of_get?, get?_of_mem distinct⟩

theorem get?_filter (keep : String → Bool) (key : String) (entries : Entries α) :
    get? key (entries.filter fun entry => keep entry.1) =
      if keep key then get? key entries else none := by
  induction entries with
  | nil => simp [get?_nil]
  | cons entry rest ih =>
      rcases entry with ⟨k, v⟩
      by_cases h : k = key
      · subst h
        by_cases hk : keep k <;> simp [get?_cons, hk, ih]
      · by_cases hk : keep k <;> simp [get?_cons, hk, h, ih]

theorem insert_of_not_mem {key : String} {value : α} {entries : Entries α}
    (new : key ∉ keys entries) : insert key value entries = entries ++ [(key, value)] := by
  induction entries with
  | nil => rfl
  | cons entry rest ih =>
      rcases entry with ⟨k, v⟩
      simp only [keys_cons, List.mem_cons, not_or] at new
      have other : ¬k = key := fun same => new.1 same.symm
      rw [insert_cons, if_neg other, ih new.2, List.cons_append]

theorem not_mem_keys_of_nodup {entries more : Entries α} {entry : String × α}
    (distinct : (keys (entries ++ entry :: more)).Nodup) : entry.1 ∉ keys entries := by
  intro mem
  rw [keys, List.map_append, List.nodup_append] at distinct
  exact distinct.2.2 _ mem _ List.mem_cons_self rfl

theorem insertAll_of_nodup {entries more : Entries α}
    (distinct : (keys (entries ++ more)).Nodup) : insertAll entries more = entries ++ more := by
  induction more generalizing entries with
  | nil => exact (List.append_nil entries).symm
  | cons entry rest ih =>
      have new := not_mem_keys_of_nodup distinct
      have regrouped : entries ++ entry :: rest = (entries ++ [entry]) ++ rest := by simp
      rw [regrouped] at distinct ⊢
      rw [← ih distinct, insertAll, List.foldl_cons, insert_of_not_mem new]
      rfl

theorem mem_or_mem_of_mem_insertAll {entries more : Entries α} {entry : String × α}
    (mem : entry ∈ insertAll entries more) : entry ∈ entries ∨ entry ∈ more := by
  induction more generalizing entries with
  | nil => exact .inl mem
  | cons first rest ih =>
      rcases ih mem with written | behind
      · rcases eq_or_mem_of_mem_insert written with new | before
        · exact .inr (new ▸ List.mem_cons_self)
        · exact .inl before
      · exact .inr (List.mem_cons_of_mem _ behind)

theorem nodup_keys_insertAll {entries : Entries α} (more : Entries α)
    (distinct : (keys entries).Nodup) : (keys (insertAll entries more)).Nodup := by
  induction more generalizing entries with
  | nil => exact distinct
  | cons entry rest ih => exact ih (nodup_keys_insert distinct)

theorem nodup_keys_filter {entries : Entries α} (keep : String × α → Bool)
    (distinct : (keys entries).Nodup) : (keys (entries.filter keep)).Nodup :=
  (List.filter_sublist.map Prod.fst).nodup distinct

theorem mem_keys_erase {key k : String} {entries : Entries α} (h : k ∈ keys (erase key entries)) :
    k ∈ keys entries := by
  induction entries with
  | nil => cases h
  | cons entry rest ih =>
      rcases entry with ⟨k', v⟩
      by_cases hk : k' = key
      · exact List.mem_cons_of_mem _ (ih (by simpa [erase_cons, hk] using h))
      · rcases List.mem_cons.1 (by simpa [erase_cons, hk] using h) with rfl | hr
        · exact List.mem_cons_self
        · exact List.mem_cons_of_mem _ (ih hr)

theorem nodup_keys_erase {key : String} {entries : Entries α}
    (distinct : (keys entries).Nodup) : (keys (erase key entries)).Nodup := by
  induction entries with
  | nil => exact distinct
  | cons entry rest ih =>
      rcases entry with ⟨k, v⟩
      simp only [keys_cons, List.nodup_cons] at distinct
      by_cases h : k = key
      · simpa [erase_cons, h] using ih distinct.2
      · simp only [erase_cons, h, if_false, keys_cons, List.nodup_cons]
        exact ⟨fun hm => distinct.1 (mem_keys_erase hm), ih distinct.2⟩

end Entries

/-- Entries with distinct keys. -/
structure Record (α : Type) where
  entries : Entries α
  distinct : (Entries.keys entries).Nodup

namespace Record

variable {α β : Type}

@[ext] theorem ext {a b : Record α} (h : a.entries = b.entries) : a = b := by
  cases a; cases b; cases h; rfl

def empty : Record α := ⟨[], List.nodup_nil⟩

instance : EmptyCollection (Record α) := ⟨empty⟩

instance : Inhabited (Record α) := ⟨empty⟩

def keys (r : Record α) : List String := Entries.keys r.entries

def size (r : Record α) : Nat := r.entries.length

def isEmpty (r : Record α) : Bool := r.entries.isEmpty

def get? (r : Record α) (key : String) : Option α := Entries.get? key r.entries

def contains (r : Record α) (key : String) : Bool := (r.get? key).isSome

def insert (r : Record α) (key : String) (value : α) : Record α :=
  ⟨Entries.insert key value r.entries, Entries.nodup_keys_insert r.distinct⟩

def erase (r : Record α) (key : String) : Record α :=
  ⟨Entries.erase key r.entries, Entries.nodup_keys_erase r.distinct⟩

def insertAll (r : Record α) (more : Entries α) : Record α :=
  ⟨Entries.insertAll r.entries more, Entries.nodup_keys_insertAll more r.distinct⟩

/-- A repeated key keeps its first place and takes its last value. -/
def ofList (entries : Entries α) : Record α := empty.insertAll entries

def retain (r : Record α) (keep : String → Bool) : Record α :=
  ⟨r.entries.filter fun entry => keep entry.1, Entries.nodup_keys_filter _ r.distinct⟩

def sortedKeys (r : Record α) : List String :=
  r.keys.mergeSort fun a b => decide (a ≤ b)

theorem keys_insert (r : Record α) (key : String) (value : α) :
    (r.insert key value).keys = if key ∈ r.keys then r.keys else r.keys ++ [key] :=
  Entries.keys_insert key value r.entries

theorem get?_insert (r : Record α) (key k : String) (value : α) :
    (r.insert key value).get? k = if key = k then some value else r.get? k :=
  Entries.get?_insert key k value r.entries

theorem get?_retain (r : Record α) (keep : String → Bool) (key : String) :
    (r.retain keep).get? key = if keep key then r.get? key else none :=
  Entries.get?_filter keep key r.entries

theorem mem_keys_iff {r : Record α} {key : String} :
    key ∈ r.keys ↔ ∃ value, r.get? key = some value :=
  Entries.get?_isSome_iff.symm.trans Option.isSome_iff_exists

theorem mem_keys_insert {r : Record α} {key k : String} {value : α} :
    k ∈ (r.insert key value).keys ↔ k = key ∨ k ∈ r.keys :=
  Entries.mem_keys_insert

theorem mem_keys_retain {r : Record α} {keep : String → Bool} {key : String} :
    key ∈ (r.retain keep).keys ↔ keep key = true ∧ key ∈ r.keys := by
  rw [mem_keys_iff, mem_keys_iff, get?_retain]
  cases keep key <;> simp

@[simp] theorem insertAll_nil (r : Record α) : r.insertAll [] = r := rfl

@[simp] theorem empty_insertAll (r : Record α) : empty.insertAll r.entries = r := by
  have same : Entries.insertAll [] r.entries = r.entries := Entries.insertAll_of_nodup r.distinct
  exact Record.ext same

end Record

end Formwork
