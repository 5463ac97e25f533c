import Formwork.Proofs.Run.Alike
import Formwork.Resolver

/-!
# Faithful memos

A memo is faithful when each cached component is the one that resolving and wrapping its reference
gives. Over a faithful memo resolution agrees with resolution without a memo, and preserves
faithfulness.
-/

namespace Formwork

variable {σ ε α β : Type}

/-- Wrapping depends on the handle alone: it has one outcome in all states and changes none. The
wrapped component is free to read and write the state when it renders. -/
def Hoc.Steady (hoc : Hoc σ) : Prop := ∀ inner, ∃ outcome, ∀ s, hoc inner s = (outcome, s)

namespace Pipeline

def Steady (p : Pipeline σ) : Prop :=
  ∀ entry ∈ p.entries, ∀ hoc, entry.1.hoc = some hoc → Hoc.Steady hoc

theorem mem_entries_ofExternal {external : Shared (List (Middleware σ))}
    {entry : Middleware σ × Bool} (mem : entry ∈ (ofExternal external).entries) :
    entry.1 = Middleware.withValueAsNumber ∨ entry.1 ∈ external.content := by
  simp only [ofExternal, entries, Middleware.builtins, List.map_cons, List.map_nil,
    List.cons_append, List.nil_append, List.mem_cons, List.mem_map] at mem
  rcases mem with rfl | ⟨m, external_mem, rfl⟩
  · exact .inl rfl
  · exact .inr external_mem

theorem steady_ofExternal {external : Shared (List (Middleware σ))}
    (h : ∀ m ∈ external.content, ∀ hoc, m.hoc = some hoc → Hoc.Steady hoc) :
    (ofExternal external).Steady := by
  intro entry mem hoc some_hoc
  rcases mem_entries_ofExternal mem with builtin | external_mem
  · rw [builtin] at some_hoc
    cases some_hoc
    exact fun inner => ⟨_, fun _ => rfl⟩
  · exact h _ external_mem hoc some_hoc

theorem exists_entry_of_mem_active {p : Pipeline σ} {flags : List Bool} {hoc : Hoc σ}
    (mem : hoc ∈ p.active flags) : ∃ entry ∈ p.entries, entry.1.hoc = some hoc := by
  obtain ⟨⟨entry, flag⟩, zipped, chosen⟩ := List.mem_filterMap.1 mem
  cases flag with
  | false => contradiction
  | true => exact ⟨entry, (List.of_mem_zip zipped).1, chosen⟩

theorem wrap_steady {hocs : List (Hoc σ)} (steady : ∀ hoc ∈ hocs, Hoc.Steady hoc)
    (handle : Handle σ) : ∃ outcome, ∀ s, wrap hocs handle s = (outcome, s) := by
  induction hocs with
  | nil => exact ⟨.value handle, fun _ => rfl⟩
  | cons hoc rest ih =>
      obtain ⟨outcome, inner⟩ := ih fun hoc mem => steady hoc (List.mem_cons_of_mem _ mem)
      cases outcome with
      | value wrapped =>
          obtain ⟨outer, outermost⟩ := steady hoc List.mem_cons_self wrapped
          refine ⟨outer, fun s => ?_⟩
          rw [wrap, Run.bind_of_value (inner s), outermost]
      | error e => exact e.elim
      | panic p => exact ⟨.panic p, fun s => Run.bind_of_panic (inner s)⟩

theorem compose_steady {p : Pipeline σ} (steady : p.Steady) (base : Handle σ)
    (flags : List Bool) : ∃ outcome, ∀ s, p.compose base flags s = (outcome, s) := by
  apply wrap_steady
  intro hoc mem
  obtain ⟨entry, entry_mem, some_hoc⟩ := exists_entry_of_mem_active mem
  exact steady entry entry_mem hoc some_hoc

theorem select_alike (p : Pipeline σ) (props : Props) :
    Run.Alike (World.Over Eq) Eq (p.select props) (p.select props) := by
  unfold select
  split
  · exact World.onHost_alike (.self _)
  · dsimp only
    split
    · exact (World.record_alike _ _).bind_eq fun _ => .fail _
    · exact .fail _

end Pipeline

@[simp] theorem Handle.settle_toComponent (build : Nat) (h : Handle σ) :
    (h.settle build).toComponent = h.toComponent := by
  unfold Handle.settle
  split <;> rfl

/-- The handles may differ in identity only. -/
def Handle.SameComponent (h h' : Handle σ) : Prop := h.toComponent = h'.toComponent

/-- Every known reference of the entry's identity resolves and is wrapped, in every state, to the
component of the entry. -/
def MemoEntry.Faithful (known : Reference σ → Prop) (registry : Registry σ) (p : Pipeline σ)
    (entry : MemoEntry σ) : Prop :=
  ∀ r, known r → r.id = entry.key.reference → ∃ base wrapped,
    r.resolve registry = .ok base ∧
      (∀ s, p.compose base entry.key.active s = (.value wrapped, s)) ∧
        wrapped.SameComponent entry.handle

namespace Resolver

def Faithful (known : Reference σ → Prop) (registry : Registry σ) (p : Pipeline σ)
    (r : Resolver σ) : Prop :=
  ∀ field entry, r.cache.get? field = some entry → entry.Faithful known registry p

variable {known : Reference σ → Prop} {registry : Registry σ} {p : Pipeline σ}

theorem faithful_empty : (empty : Resolver σ).Faithful known registry p := by
  intro field entry found
  cases found

theorem faithful_clear (r : Resolver σ) : r.clear.Faithful known registry p := faithful_empty

theorem Faithful.retainFields {r : Resolver σ} (h : r.Faithful known registry p)
    (fields : List String) : (r.retainFields fields).Faithful known registry p := by
  intro field entry found
  apply h field entry
  rw [Resolver.retainFields, Record.get?_retain] at found
  split at found
  · exact found
  · cases found

theorem Faithful.insert {r : Resolver σ} (h : r.Faithful known registry p) {field : String}
    {entry : MemoEntry σ} (faithful : entry.Faithful known registry p) (builds : Nat) :
    Faithful known registry p
      { r with builds := builds, cache := r.cache.insert field entry } := by
  intro other found_entry found
  rw [Record.get?_insert] at found
  split at found
  · cases found
    exact faithful
  · exact h other found_entry found

theorem exists_entry_of_lookup? {r : Resolver σ} {field : String} {key : MemoKey}
    {registry middlewares : Nat} {handle : Handle σ}
    (h : r.lookup? field key registry middlewares = some handle) :
    ∃ entry, r.cache.get? field = some entry ∧ entry.key = key ∧ entry.handle = handle := by
  unfold lookup? at h
  split at h
  · next entry found =>
    split at h
    · next same =>
      cases h
      exact ⟨entry, found, same.1, rfl⟩
    · contradiction
  · contradiction

/-- Resolution without a memo: lookup and wrapping. -/
def anew (reference : Reference σ) (props : Props) (registry : Registry σ) (p : Pipeline σ) :
    Run (World σ) FormError (Handle σ) := do
  let flags ← p.select props
  let base ← .ofExcept (reference.resolve registry)
  World.onHost (p.compose base flags).lift

end Resolver

namespace Session

/-- A session with a faithful memo, and a world with the same host state. -/
def Beside (known : Reference σ → Prop) (registry : Registry σ) (p : Pipeline σ)
    (s : Session σ) (w : World σ) : Prop :=
  s.world.host = w.host ∧ s.resolver.Faithful known registry p

variable {known : Reference σ → Prop} {registry : Registry σ} {p : Pipeline σ}

theorem onWorld_beside {A : α → β → Prop} {m : Run (World σ) ε α} {n : Run (World σ) ε β}
    (h : Run.Alike (World.Over Eq) A m n) :
    Run.Alike (Beside known registry p) A (onWorld m) n := by
  rintro s w ⟨host, faithful⟩
  obtain ⟨outcome, hosts⟩ := h s.world w host
  exact ⟨outcome, hosts, faithful⟩

end Session

namespace Resolver

variable {known : Reference σ → Prop} {registry : Shared (Registry σ)} {p : Pipeline σ}

theorem build_alike (steady : p.Steady)
    (unique : ∀ r r', known r → known r' → r.id = r'.id → r = r') {reference : Reference σ}
    (is_known : known reference) (field : String) (flags : List Bool) :
    Run.Alike (Session.Beside known registry.content p) Handle.SameComponent
      (build field reference ⟨reference.id, flags⟩ registry p)
      (do
        let base ← Run.ofExcept (reference.resolve registry.content)
        World.onHost (p.compose base flags).lift) := by
  unfold build
  cases resolved : reference.resolve registry.content with
  | error e => exact fun s w h => ⟨.error e, h⟩
  | ok base =>
      obtain ⟨outcome, composed⟩ := Pipeline.compose_steady steady base flags
      have wrapping : Run.Alike (ε := FormError) (Session.Beside known registry.content p)
          (fun wrapped wrapped' => wrapped = wrapped' ∧ outcome = .value wrapped)
          (Session.onHost (p.compose base flags).lift)
          (World.onHost (p.compose base flags).lift) :=
        (Session.onWorld_beside (World.onHost_alike (.self _))).also fun s _ ended =>
          (congrArg Prod.fst (composed s.world.host)).symm.trans (Run.value_of_lift ended)
      rw [Run.ofExcept_ok_bind, Run.ofExcept_ok_bind,
        ← bind_pure (World.onHost (p.compose base flags).lift)]
      refine wrapping.bind ?_
      rintro wrapped _ ⟨rfl, rfl⟩ s w ⟨host, faithful⟩
      have entered : MemoEntry.Faithful known registry.content p
          ⟨⟨reference.id, flags⟩, registry.id, p.external.id,
            wrapped.settle s.resolver.builds⟩ := by
        intro r r_known same
        rw [unique r reference r_known is_known same]
        exact ⟨base, wrapped, resolved, composed, (Handle.settle_toComponent _ _).symm⟩
      exact ⟨.value (Handle.settle_toComponent _ _), host, faithful.insert entered _⟩

/-- Over a faithful memo, resolution gives the component that resolution without a memo gives. -/
theorem resolve_alike_anew (steady : p.Steady)
    (unique : ∀ r r', known r → known r' → r.id = r'.id → r = r') {reference : Reference σ}
    (is_known : known reference) (field : String) (props : Props) :
    Run.Alike (Session.Beside known registry.content p) Handle.SameComponent
      (resolve field reference props registry p) (anew reference props registry.content p) := by
  rintro s w ⟨host, faithful⟩
  refine (Session.onWorld_beside (p.select_alike props)).bind ?_
    { s with resolver := { s.resolver with resolutions := s.resolver.resolutions + 1 } } w
    ⟨host, faithful⟩
  rintro flags _ rfl s w ⟨host, faithful⟩
  dsimp only
  rw [Run.read_bind_apply]
  cases found : s.resolver.lookup? field ⟨reference.id, flags⟩ registry.id p.external.id with
  | some handle =>
      obtain ⟨entry, cached, same_key, rfl⟩ := exists_entry_of_lookup? found
      obtain ⟨base, wrapped, resolved, composed, same⟩ :=
        faithful _ _ cached reference is_known (by rw [same_key])
      rw [same_key] at composed
      have right : (do
          let base ← Run.ofExcept (reference.resolve registry.content)
          World.onHost (p.compose base flags).lift) w = (.value wrapped, w) := by
        rw [resolved, Run.ofExcept_ok_bind]
        simp only [World.onHost, Run.onPart, Run.lift, Run.mapError, composed]
      rw [right]
      exact ⟨.value same.symm, host, faithful⟩
  | none => exact build_alike steady unique is_known field flags s w ⟨host, faithful⟩

end Resolver

namespace Session

/-- Two sessions with the same host state and faithful memos. -/
def Twin (known : Reference σ → Prop) (registry : Registry σ) (p : Pipeline σ)
    (s t : Session σ) : Prop :=
  s.world.host = t.world.host ∧ s.resolver.Faithful known registry p ∧
    t.resolver.Faithful known registry p

variable {known : Reference σ → Prop} {registry : Shared (Registry σ)} {p : Pipeline σ}

theorem onWorld_twin {A : α → β → Prop} {m : Run (World σ) ε α} {n : Run (World σ) ε β}
    (h : Run.Alike (World.Over Eq) A m n) :
    Run.Alike (Twin known registry.content p) A (onWorld m) (onWorld n) :=
  h.onPart (fun _ _ twin => twin.1) fun _ _ _ _ twin hosts => ⟨hosts, twin.2⟩

theorem record_twin (e e' : Event) :
    Run.Alike (Twin known registry.content p) Eq (record e : Run (Session σ) ε Unit)
      (record e') :=
  onWorld_twin (World.record_alike e e')

/-- Resolution over two faithful memos gives the same component. -/
theorem resolve_twin (steady : p.Steady)
    (unique : ∀ r r', known r → known r' → r.id = r'.id → r = r') {reference : Reference σ}
    (is_known : known reference) (field : String) (props : Props) :
    Run.Alike (Twin known registry.content p) Handle.SameComponent
      (Resolver.resolve field reference props registry p)
      (Resolver.resolve field reference props registry p) := by
  rintro s t ⟨hosts, left, right⟩
  have anew : Run.Alike (Beside known registry.content p) Handle.SameComponent
      (Resolver.resolve field reference props registry p)
      (Resolver.anew reference props registry.content p) :=
    Resolver.resolve_alike_anew steady unique is_known field props
  obtain ⟨outcome, host, faithful⟩ := anew s t.world ⟨hosts, left⟩
  obtain ⟨outcome', host', faithful'⟩ := anew t t.world ⟨rfl, right⟩
  exact ⟨outcome.join (fun _ _ _ h h' => h.trans h'.symm) outcome',
    host.trans host'.symm, faithful, faithful'⟩

end Session

end Formwork
