import SessionCache.Cache.Resident
import SessionCache.Cache.Settings
import SessionCache.Store.Sessions

/-!
# What operations work on

Operations on a cache run in a `World`: the memory of the cache, the store, the clock, and
whatever else there is outside, which only callbacks and other callers touch. An operation may
fail, and what it did before stays done.

Callbacks and waiting can change anything in the world, also by running operations of their own;
an operation meets them as functions on the world. This is how operations of other callers come
in between.
-/

namespace SessionCache

/-- The state that an operation runs on: the `cache` in memory, the `store`, the clock `now`, and
whatever else callbacks may read and change in `outside`. -/
structure World (σ ω : Type) where
  cache : Cache σ
  store : Store
  now : Instant
  /-- How many signals `Op.signal` sent: room came free, or a session became idle. -/
  signals : Nat := 0
  /-- How many slots `Op.link` made; the next one gets this number as its `Slot.stay`. -/
  stays : Nat := 0
  outside : ω

/-- A computation that changes the world. -/
abbrev Act (σ ω : Type) := StateM (World σ ω)

/-- An operation: it changes the `World` and may fail with a `CacheError`. -/
abbrev Op (σ ω : Type) := ExceptT CacheError (StateM (World σ ω))

namespace Op

variable {σ ω α : Type}

/-- Runs `op` and gives back its result, `.error e` included; the world is as `op` left it. -/
def attempt (op : Op σ ω α) : Op σ ω (Except CacheError α) := ExceptT.lift op.run

/-- The field `World.cache`. -/
def cache : Op σ ω (Cache σ) := return (← getThe (World σ ω)).cache

/-- The field `World.now`. -/
def now : Op σ ω Instant := return (← getThe (World σ ω)).now

/-- Replaces `World.cache` by `f` of it. -/
def modifyCache (f : Cache σ → Cache σ) : Op σ ω Unit :=
  modifyThe (World σ ω) fun w => { w with cache := f w.cache }

/-- Replaces `Cache.counters` by `f` of them. -/
def modifyCounters (f : Counters → Counters) : Op σ ω Unit :=
  modifyCache fun c => { c with counters := f c.counters }

/-- Replaces `Cache.usage` by `f` of it. -/
def modifyUsage (f : Usage → Usage) : Op σ ω Unit :=
  modifyCache fun c => { c with usage := f c.usage }

/-- Adds one to `World.signals`, which wakes those who wait in `Op.acquire`. -/
def signal : Op σ ω Unit := modifyThe (World σ ω) fun w => { w with signals := w.signals + 1 }

/-- Runs `action` on `World.store`; an error of the store is the error of the operation. -/
def onStore (action : SessionStoreM α) : Op σ ω α := do
  let w ← getThe (World σ ω)
  let (result, store) := action.run.run w.store
  set { w with store }
  match result with
  | .ok a => pure a
  | .error e => throw e

/-- The stage `Stage.next?` that `event` leads to from `stage`, or `.illegalTransition`. -/
def step (stage : Stage) (event : Event) : Op σ ω Stage :=
  match stage.next? event with
  | some next => pure next
  | none => throw (.illegalTransition stage event)

/-- `Cache.link` on `World.cache`: `key` gets `slot`, with `World.stays` as its `stay`. -/
def link (key : Key) (slot : Slot σ) : Op σ ω Unit :=
  modifyThe (World σ ω) fun w =>
    { w with cache := w.cache.link key { slot with stay := w.stays }, stays := w.stays + 1 }

/-- `Cache.unlink` on `World.cache`, followed by `Op.signal`. -/
def unlink (key : Key) : Op σ ω Unit := do
  modifyCache (·.unlink key)
  signal

end Op

end SessionCache
