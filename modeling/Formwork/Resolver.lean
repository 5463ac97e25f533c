import Formwork.Middleware

/-!
# Resolution

The resolver wraps the component of a field and caches the handle. A cached handle is valid while
reference, active middlewares, registry and middleware list are the same.
-/

namespace Formwork

/-- The key of a cache entry, besides registry and middlewares. -/
structure MemoKey where
  reference : Reference.Id
  active : List Bool
deriving DecidableEq

structure MemoEntry (σ : Type) where
  key : MemoKey
  registry : Nat
  middlewares : Nat
  handle : Handle σ

/-- The cache, and the counters of requests and builds. -/
structure Resolver (σ : Type) where
  cache : Record (MemoEntry σ)
  resolutions : Nat
  builds : Nat

namespace Resolver

variable {σ : Type}

def empty : Resolver σ := ⟨.empty, 0, 0⟩

def clear (r : Resolver σ) : Resolver σ := { r with cache := .empty }

def retainFields (r : Resolver σ) (fields : List String) : Resolver σ :=
  { r with cache := r.cache.retain fields.contains }

def cachedFields (r : Resolver σ) : Nat := r.cache.size

/-- The cached handle of a field, if key, registry and middlewares match. -/
def lookup? (r : Resolver σ) (field : String) (key : MemoKey) (registry middlewares : Nat) :
    Option (Handle σ) :=
  match r.cache.get? field with
  | some entry =>
    if entry.key = key ∧ entry.registry = registry ∧ entry.middlewares = middlewares then
      some entry.handle
    else none
  | none => none

end Resolver

structure Session (σ : Type) where
  world : World σ
  resolver : Resolver σ

namespace Session

variable {σ ε α : Type}

def onWorld (m : Run (World σ) ε α) : Run (Session σ) ε α :=
  m.onPart Session.world fun w s => { s with world := w }

def onHost (m : Run σ ε α) : Run (Session σ) ε α := onWorld (World.onHost m)

def record (e : Event) : Run (Session σ) ε Unit := onWorld (World.record e)

def updateResolver (f : Resolver σ → Resolver σ) : Run (Session σ) ε Unit :=
  .modify fun s => { s with resolver := f s.resolver }

end Session

namespace Resolver

variable {σ : Type}

def build (field : String) (reference : Reference σ) (key : MemoKey)
    (registry : Shared (Registry σ)) (pipeline : Pipeline σ) :
    Run (Session σ) FormError (Handle σ) := do
  let base ← .ofExcept (reference.resolve registry.content)
  let wrapped ← Session.onHost (pipeline.compose base key.active).lift
  let builds ← .read fun s => s.resolver.builds
  let handle := wrapped.settle builds
  Session.record (.componentBuilt handle.name field)
  Session.updateResolver fun r =>
    { r with
      builds := r.builds + 1
      cache := r.cache.insert field ⟨key, registry.id, pipeline.external.id, handle⟩ }
  pure handle

/-- Filters run at every request; the handle is built unless the cached one matches. -/
def resolve (field : String) (reference : Reference σ) (props : Props)
    (registry : Shared (Registry σ)) (pipeline : Pipeline σ) :
    Run (Session σ) FormError (Handle σ) := do
  Session.updateResolver fun r => { r with resolutions := r.resolutions + 1 }
  let flags ← Session.onWorld (pipeline.select props)
  let key : MemoKey := ⟨reference.id, flags⟩
  let known ← .read fun s => s.resolver.lookup? field key registry.id pipeline.external.id
  match known with
  | some handle =>
    Session.record (.componentReused field)
    pure handle
  | none => build field reference key registry pipeline

end Resolver

end Formwork
