import Mathlib.Data.List.Induction
import Formwork.Resolver

/-!
# The rebuild rule

After any history, the memo holds exactly the latest handle of each field that has not been
forgotten. A request builds a handle exactly when the latest one does not match it, and a failing
request changes the counter of requests only.
-/

namespace Formwork

variable {σ : Type}

structure Request (σ : Type) where
  field : String
  reference : Reference σ
  props : Props
  registry : Shared (Registry σ)
  pipeline : Pipeline σ

def Request.resolve (r : Request σ) : Run (Session σ) FormError (Handle σ) :=
  Resolver.resolve r.field r.reference r.props r.registry r.pipeline

/-- The entry matches the request, with these filter outcomes. -/
structure MemoEntry.BuiltFor (entry : MemoEntry σ) (r : Request σ) (flags : List Bool) : Prop where
  reference : entry.key.reference = r.reference.id
  active : entry.key.active = flags
  registry : entry.registry = r.registry.id
  middlewares : entry.middlewares = r.pipeline.external.id

def Request.entry (r : Request σ) (flags : List Bool) (handle : Handle σ) : MemoEntry σ :=
  ⟨⟨r.reference.id, flags⟩, r.registry.id, r.pipeline.external.id, handle⟩

theorem MemoEntry.BuiltFor.eq_entry {entry : MemoEntry σ} {r : Request σ} {flags : List Bool}
    (h : entry.BuiltFor r flags) : r.entry flags entry.handle = entry := by
  rcases entry with ⟨⟨reference, active⟩, registry, middlewares, handle⟩
  obtain ⟨rfl, rfl, rfl, rfl⟩ := h
  rfl

/-- The outcomes of a request without a handle: two errors, and panics. -/
inductive Refusal : Outcome FormError (Handle σ) → Prop where
  | middlewareInvalid (name : String) (builtin : Bool) :
      Refusal (.error (.middlewareInvalid name builtin))
  | componentNotFound (key : String) : Refusal (.error (.componentNotFound key))
  | panic (p : Panic) : Refusal (.panic p)

theorem Pipeline.select_error {p : Pipeline σ} {props : Props} {w : World σ} {e : FormError}
    (h : (p.select props w).1 = .error e) :
    ∃ name builtin, e = .middlewareInvalid name builtin := by
  cases checked : filters? p.entries with
  | ok filters =>
      simp only [select, checked, World.onHost, Run.onPart, Run.lift, Run.mapError] at h
      generalize runFilters props filters w.host = ended at h
      rcases ended with ⟨_ | none_fails | _, host⟩
      · cases h
      · exact none_fails.elim
      · cases h
  | error incomplete =>
      obtain ⟨m, builtin⟩ := incomplete
      simp only [select, checked] at h
      cases builtin <;> cases h <;> exact ⟨m.name, _, rfl⟩

theorem Reference.resolve_error {r : Reference σ} {registry : Registry σ} {e : FormError}
    (h : r.resolve registry = .error e) : ∃ key, e = .componentNotFound key := by
  unfold resolve at h
  split at h
  · cases h
  · next key =>
    split at h
    · cases h
    · cases h
      exact ⟨key, rfl⟩
  · cases h

namespace Resolver

theorem lookup?_eq_some_iff {memo : Resolver σ} {r : Request σ} {flags : List Bool}
    {handle : Handle σ} :
    memo.lookup? r.field ⟨r.reference.id, flags⟩ r.registry.id r.pipeline.external.id =
        some handle ↔
      ∃ entry, memo.cache.get? r.field = some entry ∧ entry.BuiltFor r flags ∧
        entry.handle = handle := by
  unfold lookup?
  constructor
  · intro found
    split at found
    · next entry cached =>
      split at found
      · next same =>
        obtain ⟨same_key, registry, middlewares⟩ := same
        cases found
        exact ⟨entry, cached, ⟨congrArg MemoKey.reference same_key,
          congrArg MemoKey.active same_key, registry, middlewares⟩, rfl⟩
      · cases found
    · cases found
  · rintro ⟨entry, cached, built, rfl⟩
    rw [cached]
    have same_key : entry.key = ⟨r.reference.id, flags⟩ := by
      rw [← built.reference, ← built.active]
    exact if_pos ⟨same_key, built.registry, built.middlewares⟩

def counted (memo : Resolver σ) : Resolver σ := { memo with resolutions := memo.resolutions + 1 }

def grown (memo : Resolver σ) (field : String) (entry : MemoEntry σ) : Resolver σ :=
  { memo with builds := memo.builds + 1, cache := memo.cache.insert field entry }

end Resolver

namespace Request

/-- The possible outcomes of a request, with the resolver they leave. -/
inductive Comes (r : Request σ) (s : Session σ) :
    Outcome FormError (Handle σ) → Resolver σ → Prop where
  | refused {outcome : Outcome FormError (Handle σ)} (refusal : Refusal outcome) :
      Comes r s outcome s.resolver.counted
  | reused {flags : List Bool} {entry : MemoEntry σ}
      (selected : (r.pipeline.select r.props s.world).1 = .value flags)
      (cached : s.resolver.cache.get? r.field = some entry) (built : entry.BuiltFor r flags) :
      Comes r s (.value entry.handle) s.resolver.counted
  | built {flags : List Bool} {handle : Handle σ}
      (selected : (r.pipeline.select r.props s.world).1 = .value flags)
      (stale : ∀ entry, s.resolver.cache.get? r.field = some entry → ¬entry.BuiltFor r flags) :
      Comes r s (.value handle) (s.resolver.counted.grown r.field (r.entry flags handle))

theorem build_comes (r : Request σ) (flags : List Bool) (s : Session σ) :
    let ended := Resolver.build r.field r.reference ⟨r.reference.id, flags⟩ r.registry r.pipeline s
    (Refusal ended.1 ∧ ended.2.resolver = s.resolver) ∨
      ∃ handle, ended.1 = .value handle ∧
        ended.2.resolver = s.resolver.grown r.field (r.entry flags handle) := by
  intro ended
  simp only [ended, Resolver.build]
  cases resolved : r.reference.resolve r.registry.content with
  | error e =>
      obtain ⟨key, rfl⟩ := Reference.resolve_error resolved
      exact .inl ⟨.componentNotFound key, rfl⟩
  | ok base =>
      rw [Run.ofExcept_ok_bind, Run.bind_apply]
      simp only [Session.onHost, Session.onWorld, World.onHost, Run.onPart, Run.lift, Run.mapError]
      rcases r.pipeline.compose base flags s.world.host with ⟨wrapped | none_fails | p, host⟩
      · exact .inr ⟨_, rfl, rfl⟩
      · exact none_fails.elim
      · exact .inl ⟨.panic p, rfl⟩

theorem resolve_of_selected {r : Request σ} {s : Session σ} {flags : List Bool} {w : World σ}
    (selected : r.pipeline.select r.props s.world = (.value flags, w)) :
    r.resolve s =
      match s.resolver.counted.lookup? r.field ⟨r.reference.id, flags⟩ r.registry.id
        r.pipeline.external.id with
      | some handle =>
        (.value handle, (Session.record (ε := FormError) (.componentReused r.field)
          ⟨w, s.resolver.counted⟩).2)
      | none => Resolver.build r.field r.reference ⟨r.reference.id, flags⟩ r.registry r.pipeline
        ⟨w, s.resolver.counted⟩ := by
  rw [resolve, Resolver.resolve, Session.updateResolver, Run.modify_bind_apply, Run.bind_apply]
  simp only [Session.onWorld, Run.onPart, selected]
  rw [Run.read_bind_apply]
  change (match s.resolver.counted.lookup? r.field ⟨r.reference.id, flags⟩ r.registry.id
    r.pipeline.external.id with
    | some handle => _
    | none => _ : Run (Session σ) FormError (Handle σ)) _ = _
  cases s.resolver.counted.lookup? r.field ⟨r.reference.id, flags⟩ r.registry.id
    r.pipeline.external.id <;> rfl

/-- A request is counted, then its filters run, and then it is answered from the memo or by a
build. -/
theorem resolve_comes (r : Request σ) (s : Session σ) :
    Comes r s (r.resolve s).1 (r.resolve s).2.resolver := by
  rcases selected : r.pipeline.select r.props s.world with ⟨flags | e | p, w⟩
  · have is_selected : (r.pipeline.select r.props s.world).1 = .value flags := by rw [selected]
    rw [resolve_of_selected selected]
    split
    · next handle found =>
      obtain ⟨entry, cached, built, rfl⟩ := Resolver.lookup?_eq_some_iff.1 found
      exact .reused is_selected cached built
    · next missing =>
      have stale : ∀ entry, s.resolver.cache.get? r.field = some entry →
          ¬entry.BuiltFor r flags := by
        intro entry cached built
        have found : s.resolver.counted.lookup? r.field ⟨r.reference.id, flags⟩ r.registry.id
            r.pipeline.external.id = some entry.handle :=
          Resolver.lookup?_eq_some_iff.2 ⟨entry, cached, built, rfl⟩
        cases missing.symm.trans found
      rcases r.build_comes flags ⟨w, s.resolver.counted⟩ with
        ⟨refusal, same⟩ | ⟨handle, given, grown⟩
      · rw [same]
        exact .refused refusal
      · rw [given, grown]
        exact .built is_selected stale
  · obtain ⟨name, builtin, rfl⟩ := Pipeline.select_error (congrArg Prod.fst selected)
    rw [resolve, Resolver.resolve, Session.updateResolver, Run.modify_bind_apply, Run.bind_apply]
    simp only [Session.onWorld, Run.onPart, selected]
    exact .refused (.middlewareInvalid name builtin)
  · rw [resolve, Resolver.resolve, Session.updateResolver, Run.modify_bind_apply, Run.bind_apply]
    simp only [Session.onWorld, Run.onPart, selected]
    exact .refused (.panic p)

end Request

namespace Resolver

inductive Call (σ : Type) where
  | resolve (request : Request σ)
  | retainFields (fields : List String)
  | clear
  /-- Host code between calls, which may change what filters read. -/
  | host (act : Run σ Empty Unit)

/-- The recorded effect of a call. -/
inductive Deed (σ : Type) where
  | gave (field : String) (entry : MemoEntry σ)
  | refused
  | retained (fields : List String)
  | cleared
  | other

namespace Call

def perform (s : Session σ) : Call σ → Session σ
  | .resolve request => (request.resolve s).2
  | .retainFields fields => { s with resolver := s.resolver.retainFields fields }
  | .clear => { s with resolver := s.resolver.clear }
  | .host act => (Session.onHost act s).2

def deed (s : Session σ) : Call σ → Deed σ
  | .resolve request =>
    match (request.pipeline.select request.props s.world).1, (request.resolve s).1 with
    | .value flags, .value handle => .gave request.field (request.entry flags handle)
    | _, _ => .refused
  | .retainFields fields => .retained fields
  | .clear => .cleared
  | .host _ => .other

def isResolve : Call σ → Bool
  | .resolve _ => true
  | _ => false

end Call

def after (calls : List (Call σ)) (s : Session σ) : Session σ :=
  calls.foldl (fun s call => call.perform s) s

def history : List (Call σ) → Session σ → List (Deed σ)
  | [], _ => []
  | call :: rest, s => call.deed s :: history rest (call.perform s)

namespace Deed

def Gives (field : String) : Deed σ → Prop
  | .gave given _ => given = field
  | _ => False

def Forgets (field : String) : Deed σ → Prop
  | .retained fields => field ∉ fields
  | .cleared => True
  | _ => False

end Deed

/-- The last handle given to a field and not forgotten since. -/
def Latest (past : List (Deed σ)) (field : String) (entry : MemoEntry σ) : Prop :=
  ∃ earlier later, past = earlier ++ .gave field entry :: later ∧
    ∀ deed ∈ later, ¬deed.Gives field ∧ ¬deed.Forgets field

theorem not_latest_nil (field : String) (entry : MemoEntry σ) : ¬Latest [] field entry := by
  rintro ⟨earlier, later, split, -⟩
  simp at split

theorem latest_concat {past : List (Deed σ)} {deed : Deed σ} {field : String}
    {entry : MemoEntry σ} :
    Latest (past ++ [deed]) field entry ↔
      deed = .gave field entry ∨
        Latest past field entry ∧ ¬deed.Gives field ∧ ¬deed.Forgets field := by
  constructor
  · rintro ⟨earlier, later, split, lasts⟩
    rcases List.eq_nil_or_concat later with rfl | ⟨before, last, rfl⟩
    · have ends := List.append_inj_right' split rfl
      exact .inl (List.singleton_inj.1 ends)
    · rw [List.concat_eq_append] at lasts
      have regrouped : past ++ [deed] = (earlier ++ .gave field entry :: before) ++ [last] := by
        simpa using split
      obtain ⟨rfl, ends⟩ := List.append_inj' regrouped rfl
      obtain rfl := List.singleton_inj.1 ends
      have stays := lasts deed (List.mem_append_right _ List.mem_cons_self)
      exact .inr ⟨⟨earlier, before, rfl, fun d mem => lasts d (List.mem_append_left _ mem)⟩, stays⟩
  · rintro (rfl | ⟨⟨earlier, later, rfl, lasts⟩, stays⟩)
    · exact ⟨past, [], rfl, nofun⟩
    · refine ⟨earlier, later ++ [deed], by simp, fun d mem => ?_⟩
      rcases List.mem_append.1 mem with mem | mem
      · exact lasts d mem
      · rw [List.mem_singleton.1 mem]
        exact stays

theorem latest_concat_gave {past : List (Deed σ)} {given field : String}
    {entry found : MemoEntry σ} :
    Latest (past ++ [.gave given entry]) field found ↔
      if given = field then entry = found else Latest past field found := by
  rw [latest_concat]
  by_cases same : given = field
  · subst same
    simp [Deed.Gives]
  · simp [Deed.Gives, Deed.Forgets, same]

theorem after_concat (calls : List (Call σ)) (call : Call σ) (s : Session σ) :
    after (calls ++ [call]) s = call.perform (after calls s) := by
  simp [after]

theorem history_concat (calls : List (Call σ)) (call : Call σ) (s : Session σ) :
    history (calls ++ [call]) s = history calls s ++ [call.deed (after calls s)] := by
  induction calls generalizing s with
  | nil => rfl
  | cons first rest ih => exact congrArg _ (ih _)

namespace Call

variable {r : Request σ} {s : Session σ}

theorem deed_of_value {flags : List Bool} {handle : Handle σ}
    (selected : (r.pipeline.select r.props s.world).1 = .value flags)
    (given : (r.resolve s).1 = .value handle) :
    (Call.resolve r).deed s = .gave r.field (r.entry flags handle) := by
  simp only [deed, selected, given]

theorem deed_of_refusal (refusal : Refusal (r.resolve s).1) :
    (Call.resolve r).deed s = .refused := by
  simp only [deed]
  generalize (r.resolve s).1 = outcome at refusal
  cases refusal <;> cases (r.pipeline.select r.props s.world).1 <;> rfl

end Call

/-- The memo holds exactly the latest handles. -/
def Remembers (memo : Resolver σ) (past : List (Deed σ)) : Prop :=
  ∀ field entry, memo.cache.get? field = some entry ↔ Latest past field entry

namespace Remembers

variable {past : List (Deed σ)} {s : Session σ}

theorem empty : Remembers (.empty : Resolver σ) [] :=
  fun field entry => ⟨nofun, fun latest => (not_latest_nil field entry latest).elim⟩

theorem idle {memo : Resolver σ} (h : Remembers memo past) {deed : Deed σ}
    (gives_none : ∀ field, ¬deed.Gives field) (forgets_none : ∀ field, ¬deed.Forgets field) :
    Remembers memo (past ++ [deed]) := by
  intro field entry
  rw [h, latest_concat]
  have not_gave : deed ≠ .gave field entry := by
    rintro rfl
    exact gives_none field rfl
  simp [not_gave, gives_none, forgets_none]

theorem reused {memo : Resolver σ} (h : Remembers memo past) {given : String}
    {entry : MemoEntry σ} (cached : memo.cache.get? given = some entry) :
    Remembers memo (past ++ [.gave given entry]) := by
  intro field found
  rw [latest_concat_gave, ← h]
  split
  · next same =>
    rw [← same, cached, Option.some.injEq]
  · rfl

theorem grown {memo : Resolver σ} (h : Remembers memo past) (given : String)
    (entry : MemoEntry σ) : Remembers (memo.grown given entry) (past ++ [.gave given entry]) := by
  intro field found
  rw [latest_concat_gave, ← h, Resolver.grown, Record.get?_insert]
  split
  · rw [Option.some.injEq]
  · rfl

theorem retained {memo : Resolver σ} (h : Remembers memo past) (fields : List String) :
    Remembers (memo.retainFields fields) (past ++ [.retained fields]) := by
  intro field entry
  rw [latest_concat, ← h, retainFields, Record.get?_retain]
  by_cases kept : field ∈ fields <;> simp [kept, Deed.Gives, Deed.Forgets]

theorem cleared (memo : Resolver σ) : Remembers memo.clear (past ++ [.cleared]) := by
  intro field entry
  rw [latest_concat]
  simp [clear, Record.get?, Record.empty, Entries.get?, Deed.Forgets]

/-- The step: the recorded effect of a call determines the change of the memo. -/
theorem step (h : Remembers s.resolver past) (call : Call σ) :
    Remembers (call.perform s).resolver (past ++ [call.deed s]) := by
  cases call with
  | resolve r =>
      have counted : Remembers s.resolver.counted past := h
      have comes := r.resolve_comes s
      rw [Call.perform]
      generalize ended : (r.resolve s).1 = outcome, (r.resolve s).2.resolver = memo at comes
      cases comes with
      | refused refusal =>
          rw [Call.deed_of_refusal (ended ▸ refusal)]
          exact counted.idle nofun nofun
      | reused selected cached built =>
          rw [Call.deed_of_value selected ended, built.eq_entry]
          exact counted.reused cached
      | built selected stale =>
          rw [Call.deed_of_value selected ended]
          exact counted.grown _ _
  | retainFields fields => exact h.retained fields
  | clear => exact cleared _
  | host act => exact h.idle nofun nofun

/-- The run: after any calls the memo holds exactly the latest handles of their history. -/
theorem after (calls : List (Call σ)) (w : World σ) :
    Remembers (after calls ⟨w, .empty⟩).resolver (history calls ⟨w, .empty⟩) := by
  induction calls using List.reverseRecOn with
  | nil => exact empty
  | append_singleton calls call ih =>
      rw [after_concat, history_concat]
      exact ih.step call

theorem exists_fields {memo : Resolver σ} (h : Remembers memo past) :
    ∃ fields : List String, fields.Nodup ∧
      (∀ field, field ∈ fields ↔ ∃ entry, Latest past field entry) ∧
        memo.cachedFields = fields.length := by
  refine ⟨memo.cache.keys, memo.cache.distinct, fun field => ?_, ?_⟩
  · rw [Record.keys, ← Entries.get?_isSome_iff, Option.isSome_iff_exists]
    exact exists_congr (h field)
  · simp [cachedFields, Record.size, Record.keys, Entries.keys]

end Remembers

theorem resolutions_after (calls : List (Call σ)) (w : World σ) :
    (after calls ⟨w, .empty⟩).resolver.resolutions = calls.countP Call.isResolve := by
  induction calls using List.reverseRecOn with
  | nil => rfl
  | append_singleton calls call ih =>
      rw [after_concat, List.countP_append, ← ih]
      cases call with
      | resolve r =>
          have comes := r.resolve_comes (after calls ⟨w, .empty⟩)
          rw [Call.perform]
          generalize (r.resolve _).1 = outcome, (r.resolve _).2.resolver = memo at comes
          cases comes <;> rfl
      | retainFields | clear | host => rfl

/-- The rebuild rule. After any calls, a request is counted once. If it is answered, a handle is
built unless the latest handle of its field, not forgotten since, was built for the same reference,
filter outcomes, registry and middlewares; in that case the same handle is returned. A failing
request leaves the memo and the number of builds unchanged. The number of cached fields is the
number of fields with a latest handle. -/
theorem resolve_after (calls : List (Call σ)) (w : World σ) (r : Request σ) :
    let s := after calls ⟨w, .empty⟩
    let past := history calls ⟨w, .empty⟩
    let ended := r.resolve s
    s.resolver.resolutions = calls.countP Call.isResolve ∧
    ended.2.resolver.resolutions = s.resolver.resolutions + 1 ∧
    (∀ handle, ended.1 = .value handle → ∃ flags,
      (r.pipeline.select r.props s.world).1 = .value flags ∧
        ((∃ entry, Latest past r.field entry ∧ entry.BuiltFor r flags ∧ handle = entry.handle ∧
            ended.2.resolver.builds = s.resolver.builds) ∨
          ((∀ entry, Latest past r.field entry → ¬entry.BuiltFor r flags) ∧
            ended.2.resolver.builds = s.resolver.builds + 1))) ∧
    (∃ fields : List String, fields.Nodup ∧
      (∀ field, field ∈ fields ↔ ∃ entry, Latest past field entry) ∧
        s.resolver.cachedFields = fields.length) ∧
    ((∀ handle, ended.1 ≠ .value handle) →
      Refusal ended.1 ∧ ended.2.resolver.builds = s.resolver.builds ∧
        ended.2.resolver.cache = s.resolver.cache ∧
          ∀ field entry, Latest (history (calls ++ [.resolve r]) ⟨w, .empty⟩) field entry ↔
            Latest past field entry) := by
  intro s past ended
  have remembers : Remembers s.resolver past := .after calls w
  have later : Remembers ended.2.resolver (history (calls ++ [.resolve r]) ⟨w, .empty⟩) := by
    rw [history_concat]
    exact remembers.step (.resolve r)
  have comes : r.Comes s ended.1 ended.2.resolver := r.resolve_comes s
  generalize ended.1 = outcome, ended.2.resolver = memo at comes later
  refine ⟨resolutions_after calls w, ?_, ?_, remembers.exists_fields, ?_⟩
  · cases comes <;> rfl
  · rintro handle rfl
    cases comes with
    | refused refusal => cases refusal
    | reused selected cached built =>
        exact ⟨_, selected, .inl ⟨_, (remembers _ _).1 cached, built, rfl, rfl⟩⟩
    | built selected stale =>
        exact ⟨_, selected,
          .inr ⟨fun entry latest => stale entry ((remembers _ _).2 latest), rfl⟩⟩
  · intro no_handle
    cases comes with
    | refused refusal =>
        exact ⟨refusal, rfl, rfl, fun field entry => (later field entry).symm.trans
          (remembers field entry)⟩
    | reused => exact (no_handle _ rfl).elim
    | built => exact (no_handle _ rfl).elim

end Resolver

end Formwork
