import Formwork.Proofs.Marker.Leftmost

/-!
# Printing markers

A marker is printed as `#`, its name and its arguments in parentheses. Printing is inverted by
parsing exactly for readable markers: no argument contains a delimiter or outer white space, and the
only argument is not empty. Every parsed marker is readable.
-/

namespace Formwork

namespace Text

variable {cs : List Char}

theorem trim_eq_nil_iff : trim cs = [] ↔ Blank cs := by
  constructor
  · intro nothing
    obtain ⟨w, w', blank, blank', padded⟩ := exists_padding cs
    rw [← padded, nothing]
    exact blank.append blank'
  · intro blank
    have nothing : trim ([] ++ cs) = trim [] := trim_append_blank blank
    exact nothing

theorem mem_of_mem_trim {c : Char} (mem : c ∈ trim cs) : c ∈ cs := by
  obtain ⟨w, w', -, -, padded⟩ := exists_padding cs
  rw [← padded]
  exact List.mem_append_right _ (List.mem_append_left _ mem)

end Text

namespace Marker

open Text

/-- An argument that can be read back: trimmed, without comma or closing parenthesis. -/
structure IsArgument (arg : String) : Prop where
  trimmed : trim arg.toList = arg.toList
  no_comma : ',' ∉ arg.toList
  unclosed : ')' ∉ arg.toList

structure Readable (m : Marker) : Prop where
  named : m.name ≠ ""
  letters : ∀ c ∈ m.name.toList, isWord c = true
  arguments : ∀ arg ∈ m.args, IsArgument arg
  /-- A single blank argument counts as none. -/
  not_blank : m.args ≠ [""]

instance (arg : String) : Decidable (IsArgument arg) :=
  decidable_of_iff (trim arg.toList = arg.toList ∧ ',' ∉ arg.toList ∧ ')' ∉ arg.toList)
    ⟨fun ⟨trimmed, no_comma, unclosed⟩ => ⟨trimmed, no_comma, unclosed⟩,
      fun ⟨trimmed, no_comma, unclosed⟩ => ⟨trimmed, no_comma, unclosed⟩⟩

instance (m : Marker) : Decidable m.Readable :=
  decidable_of_iff (m.name ≠ "" ∧ m.name.toList.all isWord = true ∧
      (∀ arg ∈ m.args, IsArgument arg) ∧ m.args ≠ [""])
    ⟨fun ⟨named, letters, arguments, not_blank⟩ =>
        ⟨named, List.all_eq_true.1 letters, arguments, not_blank⟩,
      fun ⟨named, letters, arguments, not_blank⟩ =>
        ⟨named, List.all_eq_true.2 letters, arguments, not_blank⟩⟩

def print (m : Marker) : String := "#" ++ m.name ++ "(" ++ ", ".intercalate m.args ++ ")"

def printArguments (args : List String) : List Char :=
  [',', ' '].intercalate (args.map String.toList)

theorem toList_print (m : Marker) :
    m.print.toList = '#' :: (m.name.toList ++ '(' :: (printArguments m.args ++ [')'])) := by
  simp [print, printArguments, String.toList_intercalate]

/-! ## Parsing printed markers -/

variable {m : Marker} {args : List String} {raw : List Char}

theorem intercalate_spaced (a : List Char) (rest : List (List Char)) :
    [',', ' '].intercalate (a :: rest) = [','].intercalate (a :: rest.map (' ' :: ·)) := by
  induction rest generalizing a with
  | nil => simp
  | cons b rest ih =>
      rw [List.map_cons, List.intercalate_cons_cons, List.intercalate_cons_cons, ih b]
      cases rest with
      | nil => simp
      | cons c rest => simp [List.intercalate_cons_cons]

theorem trim_space (cs : List Char) : trim (' ' :: cs) = trim cs := by
  have blank : Blank [' '] := by decide
  have padded : trim ([' '] ++ (cs ++ [])) = trim cs := trim_padded blank blank_nil
  simpa using padded

theorem splitOn_printArguments (some_args : args ≠ []) (no_comma : ∀ a ∈ args, ',' ∉ a.toList) :
    ((printArguments args).splitOn ',').map trim = args.map fun a => trim a.toList := by
  obtain ⟨a, rest, rfl⟩ := List.exists_cons_of_ne_nil some_args
  rw [List.forall_mem_cons] at no_comma
  have pieces : ∀ piece ∈ a.toList :: (rest.map String.toList).map (' ' :: ·), ',' ∉ piece := by
    simpa using no_comma
  rw [printArguments, List.map_cons, intercalate_spaced,
    List.splitOn_intercalate ',' pieces (List.cons_ne_nil _ _)]
  simp [trim_space]

theorem blank_printArguments (arguments : ∀ a ∈ args, IsArgument a) (not_blank : args ≠ [""]) :
    Blank (printArguments args) ↔ args = [] := by
  constructor
  · intro blank
    match args with
    | [] => rfl
    | [a] =>
        have alone : printArguments [a] = a.toList := by simp [printArguments]
        rw [alone, ← trim_eq_nil_iff, (arguments a List.mem_cons_self).trimmed,
          String.toList_eq_nil_iff] at blank
        exact (not_blank (congrArg (fun b => [b]) blank)).elim
    | a :: b :: rest =>
        refine (blank.not_mem (c := ',') (by decide) ?_).elim
        simp [printArguments, List.intercalate_cons_cons]
  · rintro rfl
    exact blank_nil

theorem arguments_printArguments (arguments : ∀ a ∈ args, IsArgument a) (not_blank : args ≠ [""]) :
    Marker.arguments (printArguments args) = args := by
  rw [arguments_eq]
  split
  · next blank => exact ((blank_printArguments arguments not_blank).1 blank).symm
  · next visible =>
    have some_args : args ≠ [] := fun none_given =>
      visible ((blank_printArguments arguments not_blank).2 none_given)
    have pieces := splitOn_printArguments some_args fun a mem => (arguments a mem).no_comma
    calc ((printArguments args).splitOn ',').map (fun piece => String.ofList (trim piece))
        = (((printArguments args).splitOn ',').map trim).map String.ofList := by
          rw [List.map_map]
          rfl
      _ = args.map fun a => String.ofList (trim a.toList) := by
          rw [pieces, List.map_map]
          rfl
      _ = args := by
          refine (List.map_congr_left fun a mem => ?_).trans (List.map_id args)
          rw [(arguments a mem).trimmed, String.ofList_toList]
          rfl

theorem not_mem_intercalate {c : Char} {separator : List Char} {pieces : List (List Char)}
    (apart : c ∉ separator) (each : ∀ piece ∈ pieces, c ∉ piece) :
    c ∉ separator.intercalate pieces := by
  induction pieces with
  | nil => exact List.not_mem_nil
  | cons piece rest ih =>
      rw [List.forall_mem_cons] at each
      cases rest with
      | nil => simpa using each.1
      | cons next rest =>
          rw [List.intercalate_cons_cons, List.mem_append, List.mem_append]
          rintro ((here | between) | later)
          · exact each.1 here
          · exact apart between
          · exact ih each.2 later

theorem Readable.opens (readable : m.Readable) :
    Opens m.name.toList (printArguments m.args) m.print.toList where
  named empty := readable.named (String.toList_eq_nil_iff.1 empty)
  letters := readable.letters
  unclosed := by
    refine not_mem_intercalate (by decide) (List.forall_mem_map.2 fun arg mem => ?_)
    exact (readable.arguments arg mem).unclosed
  text := by rw [toList_print]

theorem Readable.parse?_print (readable : m.Readable) : parse? m.print = some m := by
  have front : front? m.print.toList = some m := by
    rw [front?_eq_some_iff]
    refine ⟨_, _, readable.opens, ?_⟩
    rw [arguments_printArguments readable.arguments readable.not_blank, String.ofList_toList]
  rw [parse?, toList_print, find?_cons, ← toList_print, front, Option.some_or]

/-! ## Parsed markers -/

theorem forall_mem_splitOn (separator : Char) (cs : List Char) :
    ∀ piece ∈ cs.splitOn separator, separator ∉ piece ∧ piece ⊆ cs := by
  induction cs with
  | nil => simp
  | cons c rest ih =>
      obtain ⟨first, others, split⟩ :=
        List.exists_cons_of_ne_nil (List.splitOn_ne_nil separator rest)
      rw [split, List.forall_mem_cons] at ih
      obtain ⟨⟨apart, inside⟩, later⟩ := ih
      have others_inside : ∀ piece ∈ others, separator ∉ piece ∧ piece ⊆ c :: rest :=
        fun piece mem => ⟨(later piece mem).1, List.subset_cons_of_subset c (later piece mem).2⟩
      rw [List.splitOn_cons_eq_if_modifyHead, split]
      split
      · have first_inside : first ⊆ c :: rest := List.subset_cons_of_subset c inside
        exact List.forall_mem_cons.2 ⟨⟨List.not_mem_nil, List.nil_subset _⟩,
          List.forall_mem_cons.2 ⟨⟨apart, first_inside⟩, others_inside⟩⟩
      · next other =>
        rw [beq_iff_eq] at other
        have longer_apart : separator ∉ c :: first := by
          rw [List.mem_cons, not_or]
          exact ⟨Ne.symm other, apart⟩
        exact List.forall_mem_cons.2 ⟨⟨longer_apart, List.cons_subset_cons c inside⟩, others_inside⟩

theorem isArgument_of_mem (unclosed : ')' ∉ raw) {arg : String}
    (mem : arg ∈ Marker.arguments raw) : IsArgument arg := by
  rw [arguments_eq] at mem
  split at mem
  · cases mem
  · obtain ⟨piece, piece_mem, rfl⟩ := List.mem_map.1 mem
    obtain ⟨no_comma, inside⟩ := forall_mem_splitOn ',' raw piece piece_mem
    constructor
    · rw [String.toList_ofList, trim_trim]
    · rw [String.toList_ofList]
      exact fun mem => no_comma (mem_of_mem_trim mem)
    · rw [String.toList_ofList]
      exact fun mem => unclosed (inside (mem_of_mem_trim mem))

theorem arguments_ne_blank (raw : List Char) : Marker.arguments raw ≠ [""] := by
  rw [arguments_eq]
  split
  · exact (List.cons_ne_nil _ _).symm
  · next visible =>
    intro single
    obtain ⟨piece, whole, empty⟩ := List.map_eq_singleton_iff.1 single
    have is_raw : [','].intercalate (raw.splitOn ',') = raw := List.intercalate_splitOn ','
    rw [whole, List.intercalate_singleton] at is_raw
    subst is_raw
    have nothing := congrArg String.toList empty
    rw [String.toList_ofList] at nothing
    exact visible (trim_eq_nil_iff.1 nothing)

theorem readable_of_parse? {text : String} (read : parse? text = some m) : m.Readable := by
  rw [parse?, find?_eq_some_iff] at read
  obtain ⟨here, -, front⟩ := read
  obtain ⟨name, raw, opens, rfl⟩ := front?_eq_some_iff.1 front
  constructor
  · exact fun empty => opens.named (String.ofList_eq_empty_iff.1 empty)
  · rw [String.toList_ofList]
    exact opens.letters
  · exact fun arg => isArgument_of_mem opens.unclosed
  · exact arguments_ne_blank raw

/-! ## Calling parsed markers -/

/-- Parsing inverts printing of markers. A marker is read back from its text exactly when it is
readable, and every parsed marker is. Its function receives one value for each argument: the value
of the context, or null. -/
theorem parse?_print_iff (m : Marker) :
    (m.Readable ↔ parse? m.print = some m) ∧
    (m.Readable ↔ ∃ text, parse? text = some m) ∧
    ∀ {σ : Type} (context : Context) (functions : Functions σ) (f : Function σ),
      functions.get? m.name = some f → ∃ values : List Value,
        values.length = m.args.length ∧
        (∀ (i : Nat) (arg : String), m.args[i]? = some arg →
          values[i]? = some ((context.get? arg).getD .null)) ∧
        m.call context functions = (f values).mapError (.functionFailed m.name) ∧
        (m.Readable → resolve m.print context functions =
          World.onHost ((f values).mapError (.functionFailed m.name))) := by
  have written : m.Readable → parse? m.print = some m := Readable.parse?_print
  refine ⟨⟨written, readable_of_parse?⟩,
    ⟨fun readable => ⟨m.print, written readable⟩, fun ⟨text, read⟩ => readable_of_parse? read⟩,
    fun context functions f known => ?_⟩
  have called : m.call context functions =
      (f (m.args.map context.lookup)).mapError (.functionFailed m.name) := by
    rw [call, Functions.call, known]
  refine ⟨m.args.map context.lookup, List.length_map _, fun i arg at_i => ?_, called,
    fun readable => ?_⟩
  · rw [List.getElem?_map, at_i]
    rfl
  · rw [resolve, written readable]
    exact congrArg World.onHost called

end Marker

namespace Sample

open Marker

def gaps : Marker := ⟨"count_1", ["", "a b", ""]⟩

def gapsContext : Context := ⟨.ofList [("a b", .bool true)]⟩

def collect : Function Unit := fun args => pure (.array args)

/-- Empty arguments are read back, and count as unknown keys. -/
theorem parse?_print_iff_gaps :
    gaps.print = "#count_1(, a b, )" ∧ parse? gaps.print = some gaps ∧
    ∃ values : List Value, values.length = 3 ∧ values[0]? = some .null ∧
      values[1]? = some (.bool true) ∧ values[2]? = some .null ∧
      resolve gaps.print gapsContext (Functions.initial.replace "count_1" collect) =
        World.onHost ((collect values).mapError (.functionFailed "count_1")) := by
  have readable : gaps.Readable := by decide
  obtain ⟨written, -, calls⟩ := parse?_print_iff gaps
  obtain ⟨values, length, each, -, resolved⟩ :=
    calls gapsContext (Functions.initial.replace "count_1" collect) collect rfl
  exact ⟨by decide, written.1 readable, values, length, each 0 "" rfl, each 1 "a b" rfl,
    each 2 "" rfl, resolved readable⟩

end Sample

end Formwork
