import SessionCache.Cache.Inspection
import SessionCache.Cache.Sweeping

/-!
# What a scenario shows

Each step has an `Answer`, and leaves `LogLine`s of the callbacks that ran. An `Outcome` puts these
together with what the cache and the store hold after the step.
-/

namespace SessionCache.Scenario

open Json

/-- The answers of steps. -/
inductive Answer where
  | done
  /-- The step was skipped. -/
  | skipped (why : String)
  /-- The text of the step is not a key. -/
  | invalidKey
  | failed (error : CacheError)
  /-- A call to the backend failed. -/
  | storeFailed (error : StoreError)
  | flag (b : Bool)
  | count (n : Nat)
  | name (s : String)
  | created (key : Key)
  | checkedOut (key : Key) (cart : Cart)
  | state (cart : Cart)
  | value (v : Value)
  | entry (info : EntryInfo)
  | keys (keys : List Key)
  | records (metas : List RecordMeta)
  | bytes (content : Option ByteArray)
  | names (names : List String)
  /-- `reservedCount`. -/
  | size (n : Int)
  | report (report : SweepReport)
  | stats (stats : Stats)
  | settings (maxSize : Nat) (blockOnFull : Bool)
  | limit (d : Option Duration)

/-- A line of the log of callbacks. -/
inductive LogLine where
  /-- A callback of `point` for `key`. -/
  | callback (point : String) (key : Key)
  /-- A step inside of a callback, with its answer. -/
  | nested (name : String) (answer : Answer)

/-- What is observed after a step. -/
structure Outcome where
  answer : Answer
  /-- What was logged during the step. -/
  log : List LogLine
  /-- The keys of the slots, latest first, and the statistics; `none` without a cache. -/
  cache : Option (List Key × Stats)
  /-- The keys of the records, if they can be listed. -/
  stored : Option (List Key)
  /-- The time after the step. -/
  now : Instant
  /-- The steps that ran while this one waited, with their times since its start; `none` if none
  were asked for. -/
  during : Option (List (Duration × Answer))

end SessionCache.Scenario
