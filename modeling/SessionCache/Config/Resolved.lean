import SessionCache.Cache.Settings
import SessionCache.Config.Error
import SessionCache.Config.Layer

/-!
# Resolved configuration

A layer is resolved by filling in what it leaves open and checking the result.

* `Layer.resolve` resolves; `Resolved.toLayer` shows a resolved configuration as a layer that sets
  everything.
* `Resolved.settings` are the settings of a cache.
-/

namespace SessionCache

/-- A configuration in which every setting has a value. -/
structure Resolved where
  maxSize : Nat
  idleTimeout : Option Duration
  blockOnFull : Bool
  blockTimeout : Duration
  sweepInterval : Duration
  removalTimeout : Option Duration
  store : StoreKind
  /-- The path of the store, if it needs one. -/
  path : Option String
  level : String
  /-- The directory of the log files. -/
  file : Option String
  deriving DecidableEq, Repr

/-- `ms` milliseconds, where 0 stands for no timeout. -/
def timeoutOf (ms : Nat) : Option Duration := if 0 < ms then some (.ofMillis ms) else none

/-- `cache.max_size`, by default. -/
def defaultMaxSize : Nat := 1000

/-- `cache.block_timeout_ms`, by default. -/
def defaultBlockTimeout : Nat := 5000

/-- `cache.sweep_interval_ms`, by default. -/
def defaultSweepInterval : Nat := 30000

/-- `logging.level`, by default. -/
def defaultLevel : String := "info"

/-- Fills in the defaults. It fails on `max_size = 0`, on `sweep_interval_ms = 0`, and on a store
without the path that it needs. -/
def Layer.resolve (layer : Layer) : Except ConfigError Resolved := do
  let cache := layer.cache.getD {}
  let store := layer.store.getD {}
  let logging := layer.logging.getD {}
  let maxSize := cache.maxSize.getD defaultMaxSize
  if maxSize = 0 then throw .noRoom
  let sweepInterval := cache.sweepInterval.getD defaultSweepInterval
  if sweepInterval = 0 then throw .noSweepInterval
  let kind := store.backend.getD .memory
  if kind.needsPath && store.path.isNone then throw (.noStorePath kind)
  return {
    maxSize
    idleTimeout := cache.idleTimeout.bind timeoutOf
    blockOnFull := cache.blockOnFull.getD false
    blockTimeout := .ofMillis (cache.blockTimeout.getD defaultBlockTimeout)
    sweepInterval := .ofMillis sweepInterval
    removalTimeout := cache.removalTimeout.bind timeoutOf
    store := kind
    path := if kind.needsPath then store.path else none
    level := logging.level.getD defaultLevel
    file := logging.file }

namespace Resolved

/-- `d` in milliseconds, at most `2 ^ 64 - 1`. -/
def wordMillis (d : Duration) : Nat := d.millis % twoTo 64

/-- `wordMillis` of a timeout, where 0 stands for none. -/
def timeoutMillis (timeout : Option Duration) : Nat := (timeout.map wordMillis).getD 0

/-- The layer that sets every setting to its value in `r`. -/
def toLayer (r : Resolved) : Layer where
  cache := some {
    maxSize := some r.maxSize
    idleTimeout := some (timeoutMillis r.idleTimeout)
    blockOnFull := some r.blockOnFull
    blockTimeout := some (wordMillis r.blockTimeout)
    sweepInterval := some (wordMillis r.sweepInterval)
    removalTimeout := some (timeoutMillis r.removalTimeout) }
  store := some { backend := some r.store, path := r.path }
  logging := some { level := some r.level, file := r.file }

/-- The `Settings` of the cache. -/
def settings (r : Resolved) : Settings :=
  let s := (({} : Settings).withMaxSize r.maxSize).withSweepInterval r.sweepInterval
  let s := match r.idleTimeout with
    | some d => s.withIdleTimeout d
    | none => s
  let s := match r.removalTimeout with
    | some d => s.withRemovalTimeout d
    | none => s
  if r.blockOnFull then s.withBlocking r.blockTimeout else s.failFast

end Resolved

end SessionCache
