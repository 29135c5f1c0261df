import SessionCache.Cache.Callbacks

/-!
# Looking at a cache

None of these changes anything in memory.

* `Op.peek` tells where a session stands, and its state where that can be read.
* `Op.contains` tells whether a session exists.
* `Stats.ofCache` puts the numbers of a cache together.
-/

namespace SessionCache

open Json

variable {σ ι ω : Type}

/-- What is known of a session without checking it out: the answer of `Op.peek`. -/
structure EntryInfo where
  key : Key
  stage : Stage
  /-- `now - lastAccess` for a session that is `.ready`, else `none`. -/
  idleFor : Option Duration
  removePending : Bool
  snapshot : Option Value

/-- The numbers of a cache, as its statistics report them. -/
structure Stats where
  /-- `Cache.occupied`: the units of room given out. -/
  resident : Int
  maxSize : Nat
  /-- The number of keys that are tracked as idle. -/
  available : Nat
  /-- The number of keys that are tracked as in use. -/
  inUse : Nat
  counters : Counters
  deriving DecidableEq

/-- The numbers of `c`, with the `maxSize` of its settings. -/
def Stats.ofCache (settings : Settings) (c : Cache σ) : Stats where
  resident := c.occupied
  maxSize := settings.maxSize
  available := c.usage.idleCount
  inUse := c.usage.inUseCount
  counters := c.counters

/-- What `slot` tells of its session at `now`; the snapshot is the encoded `payload`, if there is
one and the codec encodes it. -/
def Slot.info (codec : Codec σ) (now : Instant) (key : Key) (slot : Slot σ) : EntryInfo where
  key := key
  stage := slot.stage
  idleFor := if slot.stage = .ready then some (now.since slot.lastAccess) else none
  removePending := slot.removePending
  snapshot := slot.payload.bind fun state => (codec.encode state).toOption

namespace Op

/-- Tells where `key` stands: `Slot.info` of its slot, or what `Store.inspect` says of its record. A
record that does not decode has no snapshot, and stays. -/
def peek (s : Surroundings σ ι ω) (key : Key) : Op σ ω EntryInfo := do
  match (← cache).slot? key with
  | some slot =>
    if slot.held then throw .stalled else return slot.info s.codec (← now) key
  | none =>
    let passivated (snapshot : Option Value) : EntryInfo :=
      { key, stage := .passivated, idleFor := none, removePending := false, snapshot }
    match ← attempt (onStore (Store.inspect key)) with
    | .ok value => return passivated (some value)
    | .error (.deserialization _ _) => return passivated none
    | .error failure => throw failure

/-- Whether `key` has a slot, or else a record by `Store.holds`. -/
def contains (key : Key) : Op σ ω Bool := do
  if (← cache).isLinked key then return true else onStore (Store.holds key)

end Op

end SessionCache
