import Formwork.Proofs.Document.Json
import Formwork.Proofs.Document.Toml
import Formwork.Proofs.Schema.Entries
import Formwork.Proofs.Schema.ItemSpec
import Formwork.Schema.Document

/-!
# Schemas in both formats

Items are written as a JSON array and as TOML array tables with the same order of members. JSON
returns the items, TOML the items with sorted props.
-/

namespace Formwork

namespace Written

def json (specs : List ItemSpec) : String :=
  String.ofList (value ':' (.array (specs.map ItemSpec.toValue)))

def header : List Char := ['[', '[', 's', 'c', 'h', 'e', 'm', 'a', ']', ']', '\n']

def line (m : String × Value) : List Char := string m.1 ++ '=' :: (value '=' m.2 ++ ['\n'])

/-- Items as array tables, with one line for each member. -/
def toml (specs : List ItemSpec) : String :=
  String.ofList (specs.flatMap fun s => header ++ s.members.flatMap line)

end Written

namespace Toml

open Written

/-! ## Lines -/

/-- Reading the text as lines takes `l` to `l'`. -/
def Advances (l : Lines) (text : List Char) (l' : Lines) : Prop :=
  ∃ count ≤ text.length, ∀ fuel rest, lines (fuel + count) l (text ++ rest) = lines fuel l' rest

theorem Advances.refl (l : Lines) : Advances l [] l := ⟨0, le_rfl, fun _ _ => rfl⟩

theorem Advances.trans {l l' l'' : Lines} {text more : List Char} (first : Advances l text l')
    (second : Advances l' more l'') : Advances l (text ++ more) l'' := by
  obtain ⟨count, short, reads⟩ := first
  obtain ⟨count', short', reads'⟩ := second
  refine ⟨count' + count, by rw [List.length_append]; omega, fun fuel rest => ?_⟩
  rw [List.append_assoc, ← Nat.add_assoc, reads, reads']

theorem Advances.of_line {l l' : Lines} {c : Char} {text : List Char} (visible : isSpace c = false)
    (reads : ∀ rest, line l (c :: text ++ rest) = some (l', rest)) :
    Advances l (c :: text) l' := by
  refine ⟨1, Nat.succ_pos _, fun fuel rest => ?_⟩
  have first : skipSpace (c :: text ++ rest) = c :: text ++ rest :=
    List.dropWhile_cons_of_neg (Bool.eq_false_iff.1 visible)
  have reads := reads rest
  rw [List.cons_append] at first reads ⊢
  rw [lines, first]
  simp only [reads]
  rfl

def document : List Toml → Entries Toml
  | [] => []
  | items => [("schema", .tables items)]

theorem advances_header (l : Lines) (items : List Toml) (root : l.root = document items) :
    Advances l header ⟨document (items ++ [.table .header []]), ["schema"]⟩ := by
  refine Advances.of_line rfl fun rest => ?_
  have key : keyPath ('s' :: 'c' :: 'h' :: 'e' :: 'm' :: 'a' :: ']' :: ']' :: '\n' :: rest) =
      some ([], "schema", ']' :: ']' :: '\n' :: rest) := rfl
  have opens : openNext [] "schema" .header l.root =
      some (.header, document (items ++ [.table .header []])) := by
    rw [root]
    cases items <;> rfl
  simp only [List.cons_append, List.nil_append]
  rw [line, key]
  simp only [Option.bind_eq_bind, Option.bind_some, Lines.change, opens]
  rfl

theorem document_cons (first : Toml) (items : List Toml) :
    document (first :: items) = [("schema", .tables (first :: items))] := rfl

theorem document_concat (items : List Toml) (last : Toml) :
    document (items ++ [last]) = [("schema", .tables (items ++ [last]))] := by
  cases items <;> rfl

theorem put_document {key : String} {tree : Toml} {es : Entries Toml} (new : key ∉ Entries.keys es)
    (items : List Toml) :
    Lines.put ⟨document (items ++ [.table .header es]), ["schema"]⟩ [] key tree =
      some ⟨document (items ++ [.table .header (es ++ [(key, tree)])]), ["schema"]⟩ := by
  simp [Lines.put, Lines.change, document_concat, atPath, Entries.get?, Entries.insert, put_new new]

theorem endOfLine_string (key : String) (rest : List Char) :
    endOfLine (Written.string key ++ rest) = none := by
  rw [endOfLine, skipSpace_of_opens ((opens_string key).append rest)]
  rfl

theorem advances_member {key : String} {v : Value} {tree : Toml} {es : Entries Toml}
    (new : key ∉ Entries.keys es)
    (first : Reads (fun fuel => value fuel 0) (Written.value '=' v) tree) (items : List Toml) :
    Advances ⟨document (items ++ [.table .header es]), ["schema"]⟩ (Written.line (key, v))
      ⟨document (items ++ [.table .header (es ++ [(key, tree)])]), ["schema"]⟩ := by
  refine Advances.of_line rfl fun rest => ?_
  change line _ (Written.line (key, v) ++ rest) = _
  have text : Written.line (key, v) ++ rest =
      Written.string key ++ '=' :: (Written.value '=' v ++ '\n' :: rest) := by
    simp [Written.line]
  have reads : value (2 * (Written.value '=' v ++ '\n' :: rest).length + 2) 0
      (Written.value '=' v ++ '\n' :: rest) = some (tree, '\n' :: rest) :=
    first.reads _ _ (by rw [List.length_append]; omega) (ends_cons (by decide) rest)
  rw [text, line]
  · simp only [endOfLine_string, keyPath_string, Option.bind_eq_bind, Option.bind_some,
      skipSpace_of_opens (first.opens.append _), reads, put_document new]
    rfl
  all_goals
    intro more same
    rw [string_append] at same
    cases same

/-- Lines of new members append their trees to the last table. -/
theorem advances_members {ms : Entries Value}
    (portable : ∀ m ∈ ms, m.2.Portable (maxDepth - 1)) :
    ∃ trees, Entries.keys trees = Entries.keys ms ∧
      toMembers? trees = some (Value.sortedMembers ms) ∧
      ∀ (es : Entries Toml) (items : List Toml), (Entries.keys es ++ Entries.keys ms).Nodup →
        Advances ⟨document (items ++ [.table .header es]), ["schema"]⟩ (ms.flatMap Written.line)
          ⟨document (items ++ [.table .header (es ++ trees)]), ["schema"]⟩ := by
  induction ms with
  | nil =>
      refine ⟨[], rfl, rfl, fun es items _ => ?_⟩
      rw [List.append_nil]
      exact .refl _
  | cons m ms ih =>
      obtain ⟨first, others⟩ := List.forall_mem_cons.1 portable
      obtain ⟨tree, reads, same⟩ := stands_value first
      obtain ⟨trees, keys, same_others, advances⟩ := ih others
      refine ⟨(m.1, tree) :: trees, ?_, ?_, fun es items distinct => ?_⟩
      · rw [Entries.keys_cons, Entries.keys_cons, keys]
      · rw [toMembers?, same, same_others]
        rfl
      · have new : m.1 ∉ Entries.keys es := fun mem =>
          (List.nodup_append.1 distinct).2.2 _ mem _ List.mem_cons_self rfl
        have line := advances_member new (reads 0 (by decide)) items
        have distinct_rest :
            (Entries.keys (es ++ [(m.1, tree)]) ++ Entries.keys ms).Nodup := by
          simpa [Entries.keys] using distinct
        have rest := advances (es ++ [(m.1, tree)]) items distinct_rest
        rw [List.append_assoc] at rest
        exact line.trans rest

theorem advances_item {s : ItemSpec} (portable : s.Portable) :
    ∃ tree, toValue? tree = some s.toValue.sorted ∧
      ∀ (l : Lines) (items : List Toml), l.root = document items →
        Advances l (header ++ s.members.flatMap Written.line)
          ⟨document (items ++ [tree]), ["schema"]⟩ := by
  obtain ⟨trees, keys, same, advances⟩ := advances_members portable.members
  refine ⟨.table .header trees, ?_, fun l items root => ?_⟩
  · rw [s.toValue_eq_object]
    exact toValue?_table keys s.head_keys_members same .header
  · exact (advances_header l items root).trans (advances [] items s.nodup_keys_members)

theorem advances_items {specs : List ItemSpec} (portable : ∀ s ∈ specs, s.Portable) :
    ∃ trees, toValues? trees = some (specs.map fun s => s.toValue.sorted) ∧
      ∀ (l : Lines) (items : List Toml), l.root = document items →
        ∃ l', l'.root = document (items ++ trees) ∧
          Advances l (specs.flatMap fun s => header ++ s.members.flatMap Written.line) l' := by
  induction specs with
  | nil =>
      refine ⟨[], rfl, fun l items root => ⟨l, ?_, .refl l⟩⟩
      rw [List.append_nil, root]
  | cons s specs ih =>
      obtain ⟨first, others⟩ := List.forall_mem_cons.1 portable
      obtain ⟨tree, same, advances⟩ := advances_item first
      obtain ⟨trees, same_others, advances_others⟩ := ih others
      refine ⟨tree :: trees, ?_, fun l items root => ?_⟩
      · rw [toValues?, same, same_others]
        rfl
      · obtain ⟨l', root', advances'⟩ := advances_others ⟨_, _⟩ (items ++ [tree]) rfl
        refine ⟨l', ?_, (advances l items root).trans advances'⟩
        rw [root', List.append_assoc, List.singleton_append]

/-- The document of a schema has the tables of its items. -/
theorem parse?_toml {specs : List ItemSpec} (portable : ∀ s ∈ specs, s.Portable) :
    ∃ trees, parse? (Written.toml specs) = some (document trees) ∧
      toValues? trees = some (specs.map fun s => s.toValue.sorted) := by
  obtain ⟨trees, same, advances⟩ := advances_items portable
  refine ⟨trees, ?_, same⟩
  obtain ⟨l, root, count, short, reads⟩ := advances ⟨[], []⟩ [] rfl
  generalize text : (specs.flatMap fun s => header ++ s.members.flatMap Written.line) = cs
    at short reads
  -- no byte order mark is passed over
  have no_mark : ∀ rest, cs ≠ '\ufeff' :: rest := by
    rw [← text]
    cases specs <;> exact nofun
  have whole : lines (cs.length + 1) ⟨[], []⟩ cs = some l := by
    have fuel : cs.length - count + 1 + count = cs.length + 1 := by omega
    have last := reads (cs.length - count + 1) []
    rw [fuel, List.append_nil] at last
    rw [last]
    rfl
  rw [parse?, Written.toml, text, String.toList_ofList]
  split
  · next rest => exact absurd rfl (no_mark rest)
  · rw [whole, Option.map_some, root, List.nil_append]

end Toml

namespace Schema

variable {σ : Type}

theorem ofJson_json {specs : List ItemSpec} (portable : ∀ s ∈ specs, s.Portable) :
    ofJson (Written.json specs) = .ok (specs.map (ItemSpec.toItem (σ := σ))) := by
  have array : (Value.array (specs.map ItemSpec.toValue)).Portable 81 := by
    refine .array fun v mem => ?_
    obtain ⟨s, s_mem, rfl⟩ := List.mem_map.1 mem
    exact (portable s s_mem).toValue
  have each : List.Forall₂ (fun v s => ItemSpec.ofValue v = .ok s)
      (specs.map ItemSpec.toValue) specs :=
    List.forall₂_map_left_iff.2 (List.forall₂_same.2 fun s _ => s.ofValue_toValue)
  have reads : Json.read? (Written.json specs) = _ := Json.read?_value array (by decide)
  rw [ofJson, reads]
  exact ofEntries_eq_ok each 0

theorem ofToml_toml {specs : List ItemSpec} (nonempty : specs ≠ [])
    (portable : ∀ s ∈ specs, s.Portable) :
    ofToml (Written.toml specs) = .ok (specs.map fun s => (s.sorted.toItem : Item σ)) := by
  obtain ⟨trees, parses, same⟩ := Toml.parse?_toml portable
  have each : List.Forall₂ (fun v s => ItemSpec.ofValue v = .ok s)
      (specs.map fun s => s.toValue.sorted) (specs.map ItemSpec.sorted) :=
    List.forall₂_map_left_iff.2 <| List.forall₂_map_right_iff.2 <|
      List.forall₂_same.2 fun s _ => s.ofValue_sorted
  have members : Toml.toMembers? (Toml.document trees) =
      some [("schema", .array (specs.map fun s => s.toValue.sorted))] := by
    cases trees with
    | nil =>
        have none_left : specs = [] := List.map_eq_nil_iff.1 (Option.some.inj same).symm
        exact absurd none_left nonempty
    | cons tree trees =>
        rw [Toml.document_cons, Toml.toMembers?, Toml.toValue?, same]
        rfl
  rw [ofToml, parses, Option.bind_some, members]
  have items := ofEntries_eq_ok (σ := σ) each 0
  rw [List.map_map] at items
  exact items

theorem toItem_injective {s t : ItemSpec} (same : (s.toItem : Item σ) = t.toItem) : s = t := by
  rcases s with ⟨field, component, componentProps, formItemProps⟩
  rcases t with ⟨field', component', componentProps', formItemProps'⟩
  simpa [ItemSpec.toItem] using same

/-- Portable items come back unchanged from JSON, and with sorted keys from TOML. The formats
therefore agree exactly on items whose keys ascend. -/
theorem formats_agree_iff_ascending {specs : List ItemSpec} (nonempty : specs ≠ [])
    (portable : ∀ s ∈ specs, s.Portable) :
    ofJson (Written.json specs) = .ok (specs.map (ItemSpec.toItem (σ := σ))) ∧
      ofToml (Written.toml specs) = .ok (specs.map fun s => (s.sorted.toItem : Item σ)) ∧
      ((ofToml (Written.toml specs) : Except SchemaError (Schema σ)) =
        ofJson (Written.json specs) ↔ ∀ s ∈ specs, s.Ascending) := by
  have json := ofJson_json (σ := σ) portable
  have toml := ofToml_toml (σ := σ) nonempty portable
  refine ⟨json, toml, ?_⟩
  rw [json, toml, Except.ok.injEq, List.map_inj_left]
  refine forall₂_congr fun s mem => ?_
  rw [← (portable s mem).sorted_eq_self_iff]
  exact ⟨toItem_injective, congrArg _⟩

end Schema

namespace Sample

/-- A number field whose keys do not ascend. -/
def age : ItemSpec where
  field := "age"
  component := "NumberInput"
  componentProps := .ofList
    [("valueAsNumber", .bool true), ("hidden", .string "\x7b\x7b locked \x7d\x7d")]
  formItemProps := none

/-- A selection with tables in an array, all of whose keys ascend. -/
def size : ItemSpec where
  field := "size"
  component := "Select"
  componentProps := .ofList
    [("options", .array [.object [("label", .string "S \"slim\"\n"), ("value", .ofInt (-1))]])]
  formItemProps := some (.ofList [("help", .array []), ("label", .string "Size\x7f")])

theorem portable_age : age.Portable where
  componentProps :=
    .object (by decide) (by decide) <| List.forall_mem_cons.2
      ⟨.bool 78 true, List.forall_mem_cons.2 ⟨.string 78 _, nofun⟩⟩
  formItemProps := nofun

theorem portable_size : size.Portable where
  componentProps := by
    refine .object (by decide) (by decide) (List.forall_mem_singleton.2 ?_)
    refine .array (List.forall_mem_singleton.2 ?_)
    refine .object (by decide) (by decide) ?_
    exact List.forall_mem_cons.2
      ⟨.string 76 _, List.forall_mem_singleton.2 (.integer 76 (-1) (by decide) (by decide))⟩
  formItemProps := by
    rintro _ ⟨⟩
    refine .object (by decide) (by decide) ?_
    exact List.forall_mem_cons.2 ⟨.array nofun, List.forall_mem_singleton.2 (.string 78 _)⟩

theorem not_ascending_age : ¬age.Ascending := by
  rintro ⟨ascending, -⟩
  cases ascending with
  | object keys each =>
      exact absurd keys (by decide)

theorem formats_agree_size_not_age :
    [size, age] ≠ [] ∧ (∀ s ∈ [size, age], s.Portable) ∧
      Schema.ofJson (Written.json [size, age]) = .ok [(size.toItem : Item Unit), age.toItem] ∧
      Schema.ofToml (Written.toml [size, age]) =
        .ok [(size.sorted.toItem : Item Unit), age.sorted.toItem] ∧
      (Schema.ofToml (Written.toml [size, age]) : Except SchemaError (Schema Unit)) ≠
        Schema.ofJson (Written.json [size, age]) := by
  have portable : ∀ s ∈ [size, age], s.Portable :=
    List.forall_mem_cons.2 ⟨portable_size, List.forall_mem_singleton.2 portable_age⟩
  obtain ⟨json, toml, agree⟩ :=
    Schema.formats_agree_iff_ascending (σ := Unit) (List.cons_ne_nil size [age]) portable
  refine ⟨List.cons_ne_nil size [age], portable, json, toml, fun same => ?_⟩
  exact not_ascending_age (agree.1 same age (by simp))

/-- There is a schema on which the formats differ. -/
theorem not_formats_agree :
    ¬∀ specs : List ItemSpec, specs ≠ [] → (∀ s ∈ specs, s.Portable) →
      (Schema.ofToml (Written.toml specs) : Except SchemaError (Schema Unit)) =
        Schema.ofJson (Written.json specs) := by
  intro agree
  have portable := List.forall_mem_singleton.2 portable_age
  have same := agree [age] (List.cons_ne_nil age []) portable
  rw [Schema.ofToml_toml (List.cons_ne_nil age []) portable, Schema.ofJson_json portable,
    Except.ok.injEq, List.map_inj_left] at same
  have unchanged : age.sorted = age :=
    Schema.toItem_injective (same age (List.mem_singleton.2 rfl))
  exact not_ascending_age (portable_age.sorted_eq_self_iff.1 unchanged)

end Sample

end Formwork
