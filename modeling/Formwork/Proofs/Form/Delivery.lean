import Mathlib.Data.List.Induction
import Formwork.Proofs.Form.Confined

/-!
# Deliveries

The memory of a form, with a journal of its writes, over any sequence of passes, emissions,
configurations and other host code. With confined components, the memory is the initial one with the
journal applied, and every output writes its own field only.
-/

namespace Formwork

/-- A sequence of writes: field and value, in order of time. -/
abbrev Deliveries := List (String × Value)

def Deliveries.latest? (ds : Deliveries) (field : String) : Option Value :=
  (ds.filter (·.1 = field)).getLast?.map Prod.snd

namespace MemoryState

def deliver (memory : MemoryState) (d : String × Value) : MemoryState := memory.setValue d.1 d.2

def deliverAll (memory : MemoryState) (ds : Deliveries) : MemoryState := ds.foldl deliver memory

/-- One entry is replaced or appended; other values, the order of the other keys and the errors are
unchanged. -/
structure Writes (field : String) (value : Value) (before after : MemoryState) : Prop where
  written : after.values.get? field = some value
  others : ∀ other, other ≠ field → after.values.get? other = before.values.get? other
  keys : after.values.keys = if field ∈ before.values.keys then before.values.keys
    else before.values.keys ++ [field]
  errors : after.errors = before.errors

theorem writes_deliver (memory : MemoryState) (field : String) (value : Value) :
    Writes field value memory (memory.deliver (field, value)) where
  written := (Record.get?_insert _ _ _ _).trans (if_pos rfl)
  others _ different := (Record.get?_insert _ _ _ _).trans (if_neg different.symm)
  keys := Record.keys_insert _ _ _
  errors := rfl

variable (memory : MemoryState)

theorem deliverAll_concat (ds : Deliveries) (d : String × Value) :
    memory.deliverAll (ds ++ [d]) = (memory.deliverAll ds).deliver d := by
  simp [deliverAll]

theorem value_deliverAll (ds : Deliveries) (field : String) :
    (memory.deliverAll ds).value field = (ds.latest? field).getD (memory.value field) := by
  induction ds using List.reverseRecOn with
  | nil => rfl
  | append_singleton ds d ih =>
      have wrote := (memory.deliverAll ds).writes_deliver d.1 d.2
      rw [deliverAll_concat, Deliveries.latest?, List.filter_append]
      by_cases same : d.1 = field
      · subst same
        simp [value, wrote.written]
      · rw [Deliveries.latest?, value] at ih
        simp [same, value, wrote.others field (Ne.symm same), ih]

theorem keys_deliverAll (ds : Deliveries) :
    (memory.deliverAll ds).values.keys =
      (memory.values.keys ++ ds.map Prod.fst).eraseDups := by
  induction ds using List.reverseRecOn with
  | nil =>
      rw [List.map_nil, List.append_nil]
      exact (eraseDups_of_nodup memory.values.distinct).symm
  | append_singleton ds d ih =>
      have wrote := (memory.deliverAll ds).writes_deliver d.1 d.2
      rw [deliverAll_concat, wrote.keys, ih, List.map_append, List.map_singleton,
        ← List.append_assoc, eraseDups_concat]
      simp only [List.mem_eraseDups]

theorem errors_deliverAll (ds : Deliveries) : (memory.deliverAll ds).errors = memory.errors := by
  induction ds generalizing memory with
  | nil => rfl
  | cons d rest ih => exact ih _

end MemoryState

/-- A form's memory, with a journal of its writes. -/
structure Ledger where
  memory : MemoryState
  journal : Deliveries

namespace Ledger

def deliverAll (l : Ledger) (ds : Deliveries) : Ledger :=
  ⟨l.memory.deliverAll ds, l.journal ++ ds⟩

@[simp] theorem deliverAll_nil (l : Ledger) : l.deliverAll [] = l := by
  simp [deliverAll, MemoryState.deliverAll]

theorem deliverAll_append (l : Ledger) (ds ds' : Deliveries) :
    l.deliverAll (ds ++ ds') = (l.deliverAll ds).deliverAll ds' := by
  simp [deliverAll, MemoryState.deliverAll]

variable {τ : Type}

/-- The form state of the memory, which records each write in the journal. -/
def formState : FormState (Ledger × τ) :=
  let plain : FormState (Ledger × τ) :=
    MemoryState.formState (fun s => s.1.memory) fun memory s => ({ s.1 with memory }, s.2)
  { plain with
    setValue := fun field value s =>
      let written := plain.setValue field value s
      ({ written.1 with journal := s.1.journal ++ [(field, value)] }, written.2) }

def frame (field : String) : Frame Ledger where
  Allows l l' := ∃ ds : Deliveries, (∀ d ∈ ds, d.1 = field) ∧ l' = l.deliverAll ds
  refl l := ⟨[], nofun, l.deliverAll_nil.symm⟩
  trans := by
    rintro l _ _ ⟨ds, own, rfl⟩ ⟨ds', own', rfl⟩
    refine ⟨ds ++ ds', fun d mem => ?_, (l.deliverAll_append ds ds').symm⟩
    exact (List.mem_append.1 mem).elim (own d) (own' d)

theorem frame_allows_setValue (field : String) (value : Value) (s : Ledger × τ) :
    (frame field).Allows s.1 (formState.setValue field value s).1 :=
  ⟨[(field, value)], fun _ mem => by rw [List.mem_singleton.1 mem], rfl⟩

/-- The deliveries consist of one batch for each field, in order. -/
def Turns (fields : List String) (ds : Deliveries) : Prop :=
  ∃ parts : List Deliveries,
    List.Forall₂ (fun field part => ∀ d ∈ part, d.1 = field) fields parts ∧ ds = parts.flatten

theorem turns_of_chain {fields : List String} {l l' : Ledger}
    (chain : Frame.Chain frame fields l l') :
    ∃ ds, Turns fields ds ∧ l' = l.deliverAll ds := by
  induction chain with
  | nil l => exact ⟨[], ⟨[], .nil, rfl⟩, l.deliverAll_nil.symm⟩
  | @cons field rest l _ _ first next ih =>
      obtain ⟨part, own, rfl⟩ := first
      obtain ⟨_, ⟨parts, later, rfl⟩, rfl⟩ := ih
      exact ⟨part ++ parts.flatten, ⟨part :: parts, .cons own later, rfl⟩,
        (l.deliverAll_append _ _).symm⟩

end Ledger

variable {τ : Type}

/-- The world, the renderer, and the outputs of all passes so far. -/
structure Stage (τ : Type) where
  world : World (Ledger × τ)
  renderer : Renderer (Ledger × τ)
  outputs : List (FieldOutput (Ledger × τ))

/-- A step of a form in use. -/
inductive Move (τ : Type) where
  | pass (items : Schema (Ledger × τ)) (data : Props)
  /-- A value emitted on an element of an output, of any pass so far. -/
  | emit (output element : Nat) (value : Value)
  | configure (config : Config (Ledger × τ))
  | host (act : Run (Ledger × τ) Empty Unit)

namespace Stage

def ledger (s : Stage τ) : Ledger := s.world.host.1

def initial (config : Config (Ledger × τ)) (memory : MemoryState) (rest : τ) : Stage τ :=
  ⟨⟨(⟨memory, []⟩, rest), []⟩, .ofConfig config, []⟩

def onHost {α : Type} (act : Run (Ledger × τ) Empty α) (s : Stage τ) : Stage τ :=
  { s with world := (World.onHost act s.world).2 }

def element? (s : Stage τ) (output element : Nat) :
    Option (FieldOutput (Ledger × τ) × Element (Ledger × τ)) := do
  let o ← s.outputs[output]?
  let e ← o.node.elements[element]?
  pure (o, e)

end Stage

namespace Move

/-- A pass that panics adds no outputs. -/
def perform (s : Stage τ) : Move τ → Stage τ
  | pass items data =>
    let (outcome, world, renderer) :=
      Renderer.render items data (.controller Ledger.formState) (s.world, s.renderer)
    match outcome with
    | .value outs => ⟨world, renderer, s.outputs ++ outs⟩
    | _ => ⟨world, renderer, s.outputs⟩
  | emit output element value =>
    match s.element? output element with
    | some (_, e) => s.onHost (e.emit value)
    | none => s
  | configure config => { s with renderer := s.renderer.setConfig config }
  | host act => s.onHost act

/-- Components reach the ledger through their bindings only, and other host code leaves it
unchanged. -/
def Confined : Move τ → Prop
  | pass items _ => ∀ item ∈ items, item.reference.Confined (Prod.fst : Ledger × τ → Ledger)
  | emit _ _ _ => True
  | configure config => config.Confined (Prod.fst : Ledger × τ → Ledger)
  | host act => act.Preserves (Prod.fst : Ledger × τ → Ledger)

/-- The deliveries that a move allows: those of a pass in turns over its fields, those of an
emission under the key of the output, and none for other moves. -/
def MayDeliver (s : Stage τ) (ds : Deliveries) : Move τ → Prop
  | pass items _ => Ledger.Turns (items.map (·.field)) ds
  | emit output element _ =>
    match s.element? output element with
    | some (o, _) => ∀ d ∈ ds, d.1 = o.key
    | none => ds = []
  | configure _ => ds = []
  | host _ => ds = []

end Move

namespace Stage

/-- Configuration and memo hold confined components only, and every output stays within its key. -/
structure Sound (s : Stage τ) : Prop where
  config : s.renderer.config.Confined (Prod.fst : Ledger × τ → Ledger)
  memo : s.renderer.resolver.Confined (Prod.fst : Ledger × τ → Ledger)
  outputs : Form.OutputsWithin (Prod.fst : Ledger × τ → Ledger) Ledger.frame s.outputs

def after (moves : List (Move τ)) (s : Stage τ) : Stage τ :=
  moves.foldl Move.perform s

variable {s : Stage τ}

theorem pass_step {items : Schema (Ledger × τ)} {data : Props}
    (confined : (Move.pass items data).Confined) (sound : s.Sound) :
    ((Move.pass items data).perform s).Sound ∧ ∃ ds, (Move.pass items data).MayDeliver s ds ∧
      ((Move.pass items data).perform s).ledger = s.ledger.deliverAll ds := by
  have writes (field : String) (value : Value) (t : Ledger × τ) :
      (Ledger.frame field).Allows t.1 (Ledger.formState.setValue field value t).1 :=
    Ledger.frame_allows_setValue field value t
  have rendered := Form.render_within sound.config writes confined data
    ⟨s.world, s.renderer.resolver⟩ sound.memo
  simp only [Move.perform, Renderer.render, Renderer.run]
  generalize Form.render s.renderer.config items data _ _ = x at rendered
  rcases x with ⟨outs | e | p, t⟩
  · obtain ⟨chain, memo, within⟩ := rendered
    refine ⟨⟨sound.config, memo, fun o mem => ?_⟩, Ledger.turns_of_chain chain⟩
    exact (List.mem_append.1 mem).elim (sound.outputs o) (within outs rfl o)
  · exact e.elim
  · exact ⟨⟨sound.config, rendered.2.1, sound.outputs⟩, Ledger.turns_of_chain rendered.1⟩

theorem emit_step {output element : Nat} {value : Value} (sound : s.Sound) :
    ((Move.emit output element value).perform s).Sound ∧
      ∃ ds, (Move.emit output element value).MayDeliver s ds ∧
        ((Move.emit output element value).perform s).ledger = s.ledger.deliverAll ds := by
  simp only [Move.perform, Move.MayDeliver]
  split
  · next o e found =>
    obtain ⟨o', at_output, e', at_element, same⟩ : ∃ o', s.outputs[output]? = some o' ∧
        ∃ e', o'.node.elements[element]? = some e' ∧ (o', e') = (o, e) := by
      simpa [element?, Option.bind_eq_some_iff] using found
    cases same
    have within := sound.outputs o (List.mem_of_getElem? at_output) e
      (List.mem_of_getElem? at_element)
    obtain ⟨⟨ds, own, delivered⟩, -⟩ := Element.emit_within within value s.world.host trivial
    exact ⟨⟨sound.config, sound.memo, sound.outputs⟩, ds, own, delivered⟩
  · exact ⟨sound, [], rfl, s.ledger.deliverAll_nil.symm⟩

/-- The step: a move delivers what it allows and preserves soundness. -/
theorem perform_step {move : Move τ} (confined : move.Confined) (sound : s.Sound) :
    (move.perform s).Sound ∧ ∃ ds, move.MayDeliver s ds ∧
      (move.perform s).ledger = s.ledger.deliverAll ds := by
  cases move with
  | pass items data => exact pass_step confined sound
  | emit output element value => exact emit_step sound
  | configure config =>
      exact ⟨⟨confined, nofun, sound.outputs⟩, [], rfl, s.ledger.deliverAll_nil.symm⟩
  | host act =>
      refine ⟨⟨sound.config, sound.memo, sound.outputs⟩, [], rfl, ?_⟩
      exact (confined s.world.host).trans s.ledger.deliverAll_nil.symm

/-- The run: the ledger changes by the deliveries of the moves only. -/
theorem after_sound {moves : List (Move τ)} (confined : ∀ move ∈ moves, move.Confined)
    (sound : s.Sound) :
    (after moves s).Sound ∧ ∃ ds, (after moves s).ledger = s.ledger.deliverAll ds := by
  induction moves generalizing s with
  | nil => exact ⟨sound, [], s.ledger.deliverAll_nil.symm⟩
  | cons move rest ih =>
      obtain ⟨still_sound, ds, -, delivered⟩ := perform_step (confined move List.mem_cons_self) sound
      obtain ⟨ends_sound, ds', delivered'⟩ :=
        ih (fun move mem => confined move (List.mem_cons_of_mem _ mem)) still_sound
      refine ⟨ends_sound, ds ++ ds', ?_⟩
      rw [Ledger.deliverAll_append, ← delivered]
      exact delivered'

theorem sound_initial {config : Config (Ledger × τ)}
    (confined : config.Confined (Prod.fst : Ledger × τ → Ledger)) (memory : MemoryState)
    (rest : τ) : (initial config memory rest).Sound where
  config := confined
  memo := nofun
  outputs := nofun

/-- Fields are independent. After any moves the memory is the initial one with the journal's
deliveries applied; each delivery writes one entry; every field has its latest delivery, or its
initial value; and the next move delivers under the fields that it concerns. -/
theorem memory_after (config : Config (Ledger × τ)) (memory : MemoryState) (rest : τ)
    (moves : List (Move τ))
    (confined : config.Confined (Prod.fst : Ledger × τ → Ledger))
    (moves_confined : ∀ move ∈ moves, move.Confined) :
    let s := after moves (initial config memory rest)
    let journal := s.ledger.journal
    s.ledger.memory = memory.deliverAll journal ∧
    (∀ earlier field value later, journal = earlier ++ (field, value) :: later →
      MemoryState.Writes field value (memory.deliverAll earlier)
        (memory.deliverAll (earlier ++ [(field, value)]))) ∧
    (∀ field, s.ledger.memory.value field =
      (journal.latest? field).getD (memory.value field)) ∧
    s.ledger.memory.values.keys = (memory.values.keys ++ journal.map Prod.fst).eraseDups ∧
    s.ledger.memory.errors = memory.errors ∧
    -- A value that the handler of a binding receives is delivered for the field of the binding.
    (∀ (field : String) (t t' : Ledger × τ) (h : Handler (Ledger × τ)) (value : Value),
      (Strategy.boundTo Ledger.formState field t).onChange = some h →
        h value t' = (.value (), t'.1.deliverAll [(field, value)], t'.2)) ∧
    ∀ move : Move τ, move.Confined → ∃ more, move.MayDeliver s more ∧
      (move.perform s).ledger = s.ledger.deliverAll more := by
  intro s journal
  obtain ⟨sound, ds, delivered⟩ :=
    after_sound moves_confined (sound_initial confined memory rest)
  have is_journal : journal = ds := (congrArg Ledger.journal delivered).trans (List.nil_append ds)
  have is_memory : s.ledger.memory = memory.deliverAll journal :=
    (congrArg Ledger.memory delivered).trans (congrArg memory.deliverAll is_journal.symm)
  refine ⟨is_memory, ?_, ?_, ?_, ?_, ?_, fun move h => (perform_step h sound).2⟩
  · intro earlier field value later _
    rw [MemoryState.deliverAll_concat]
    exact MemoryState.writes_deliver _ _ _
  · intro field
    rw [is_memory]
    exact memory.value_deliverAll journal field
  · rw [is_memory]
    exact memory.keys_deliverAll journal
  · rw [is_memory]
    exact memory.errors_deliverAll journal
  · rintro field t t' h value ⟨⟩
    rfl

end Stage

namespace Sample

open Stage

/-- A text box that delivers a draft while it is rendered. -/
def drafting : Component (Ledger × Unit) where
  name := "Drafting"
  render _ binding := do
    match binding.onChange with
    | some h => (h (.string "draft")).lift
    | none => pure ()
    pure (.element "input" .empty binding.onChange [])

def listed (inner : Component (Ledger × Unit)) : Component (Ledger × Unit) where
  name := "listed(" ++ inner.name ++ ")"
  render props binding :=
    inner.render props
      { binding with onChange := binding.onChange.map fun h value => h (.array [value]) }

def drafts : Config (Ledger × Unit) where
  registry := ⟨0, .ofList [("Drafting", ⟨drafting, .shared 0⟩)]⟩
  middlewares := ⟨1, [.always "listed" fun inner => pure (.ofComponent (listed inner.toComponent))]⟩
  functions := .initial
  options := .initial

theorem drafting_confined : drafting.Confined (Prod.fst : Ledger × Unit → Ledger) := by
  intro F props binding within
  have shows : Node.Within (F.through Prod.fst)
      (.element "input" .empty binding.onChange [] : Node (Ledger × Unit)) := by
    intro e mem h some_handler
    obtain rfl := List.mem_singleton.1 mem
    exact within h some_handler
  simp only [drafting]
  split
  · next h some_handler =>
    exact (within h some_handler (.string "draft")).lift.bind fun _ _ => .pure shows
  · exact .pure shows

theorem drafts_confined : drafts.Confined (Prod.fst : Ledger × Unit → Ledger) where
  functions name f found args := by
    rw [Functions.eq_dynamicCommon_of_initial found]
    exact .pure _
  filters m mem filter some_filter props := by
    obtain rfl := List.mem_singleton.1 mem
    cases some_filter
    exact .pure _
  hocs m mem hoc some_hoc := by
    obtain rfl := List.mem_singleton.1 mem
    cases some_hoc
    refine fun F inner confined => .pure fun F props binding within => confined F props _ ?_
    intro h some_handler
    obtain ⟨h', some_handler', rfl⟩ := Option.map_eq_some_iff.1 some_handler
    exact fun value => within h' some_handler' _
  registry key h found := by
    have among : Entries.get? key [("Drafting", ⟨drafting, .shared 0⟩)] = some h := found
    simp only [Entries.get?] at among
    split at among
    · cases among
      exact drafting_confined
    · cases among

/-- Two passes over repeated fields, an emission in between, and one on the first output
afterwards. -/
def typed : List (Move Unit) :=
  let a := Item.ofReference "a" (.named "Drafting")
  let b := Item.ofReference "b" (.named "Drafting")
  [.pass [a, b, a] .empty, .emit 1 0 (.bool true), .pass [b] .empty, .emit 0 0 (.bool false)]

def saved : MemoryState := .ofValues (.ofList [("b", .null), ("c", .bool true)])

def afterTyping : Stage Unit := after typed (initial drafts saved ())

/-- The first output still writes its own field only. -/
theorem memory_after_typed :
    (afterTyping.ledger.memory.value "a").text = "[false]" ∧
      (afterTyping.ledger.memory.value "b").text = "[\"draft\"]" ∧
      (afterTyping.ledger.memory.value "c").text = "true" ∧
      afterTyping.ledger.memory.values.keys = ["b", "c", "a"] := by
  have moves_confined : ∀ move ∈ typed, move.Confined := by
    intro move mem
    simp only [typed, List.mem_cons, List.not_mem_nil, or_false] at mem
    rcases mem with rfl | rfl | rfl | rfl <;>
      simp [Move.Confined, Item.ofReference, Reference.Confined]
  obtain ⟨-, -, value, keys, -⟩ := memory_after drafts saved () typed drafts_confined moves_confined
  rw [afterTyping, value, value, value, keys]
  exact ⟨by decide +kernel, by decide +kernel, by decide +kernel, by decide +kernel⟩

end Sample

end Formwork
