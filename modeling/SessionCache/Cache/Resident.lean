import SessionCache.Association
import SessionCache.Cache.Usage
import SessionCache.Session.Stage

/-!
# Resident sessions

The sessions in memory, most recently used first. Each has a `Slot`; a slot that an operation is
working on is held, and others have to leave it alone until that is done. Room in the cache is
counted in units: a slot may hold one, and so may an operation that has not got a slot yet.
`occupied` counts the units given out. It is an integer, so that giving back a unit twice would
show.

* `Cache.lookup_link`, `Cache.lookup_unlink`: what the two do to `Cache.slot?`.
-/

namespace SessionCache

/-- The place of one session in memory, with its `stage` and its state. -/
structure Slot (σ : Type) where
  stage : Stage
  /-- The state; `none` while it is checked out, being loaded, or in the hands of a callback. -/
  payload : Option σ
  lastAccess : Instant
  /-- Set by `Op.remove` on a checked-out session: `Op.finish` will destroy it. -/
  removePending : Bool := false
  /-- Whether the slot holds one of the units that `Cache.occupied` counts. -/
  reserved : Bool := false
  /-- Whether an operation is working on the slot: others leave it alone meanwhile. -/
  held : Bool := false
  /-- The value of `World.stays` when the slot was linked; it tells the stays of a session in memory
  apart. -/
  stay : Nat := 0

/-- What happened in a cache so far, as `Cache.stats` reports it. -/
structure Counters where
  created : Nat := 0
  activated : Nat := 0
  passivated : Nat := 0
  removed : Nat := 0
  expired : Nat := 0
  passivationFailures : Nat := 0
  deriving DecidableEq, Repr

/-- The memory of a cache: its slots, what it tracks of keys, its units of room, and its
counters. -/
structure Cache (σ : Type) where
  /-- The slots, most recently used first, each key at most once. -/
  slots : List (Key × Slot σ) := []
  usage : Usage := {}
  /-- The units of room given out: one for each slot with `reserved`, and one for each operation
  between `Op.reserve` and the slot it makes. -/
  occupied : Int := 0
  counters : Counters := {}

namespace Cache

variable {σ : Type}

/-- What `slots` has under `key`. -/
def slot? (c : Cache σ) (key : Key) : Option (Slot σ) := c.slots.lookup key

/-- Whether `slots` has something under `key`. -/
def isLinked (c : Cache σ) (key : Key) : Bool := (c.slot? key).isSome

/-- The keys of `slots`, most recently used first. -/
def keys (c : Cache σ) : List Key := c.slots.map (·.1)

/-- Puts `slot` under `key` in front of all others. -/
def link (c : Cache σ) (key : Key) (slot : Slot σ) : Cache σ :=
  { c with slots := (key, slot) :: c.slots.filter (·.1 ≠ key) }

/-- Moves the slot of `key` in front of all others. -/
def promote (c : Cache σ) (key : Key) : Cache σ :=
  match c.slot? key with
  | some slot => c.link key slot
  | none => c

/-- Applies `f` to the slot of `key`. -/
def update (c : Cache σ) (key : Key) (f : Slot σ → Slot σ) : Cache σ :=
  { c with slots := c.slots.map fun entry => if entry.1 = key then (key, f entry.2) else entry }

/-- Takes the slot of `key` away, stops tracking `key` in `usage`, and takes the slot's unit off
`occupied` if it is `reserved`. -/
def unlink (c : Cache σ) (key : Key) : Cache σ :=
  { c with
    slots := c.slots.filter (·.1 ≠ key)
    usage := c.usage.forget key
    occupied := if (c.slot? key).any (·.reserved) then c.occupied - 1 else c.occupied }

/-- The session that `Op.look` passivates: the last of `slots` that is `.ready` and not `held`. -/
def victim? (c : Cache σ) : Option Key :=
  (c.slots.reverse.find? fun entry => !entry.2.held && entry.2.stage = .ready).map (·.1)

@[simp, grind =]
theorem lookup_link (c : Cache σ) (key other : Key) (slot : Slot σ) :
    (c.link key slot).slot? other = if other = key then some slot else c.slot? other := by
  by_cases h : other = key
  · subst h; simp [slot?, link]
  · have : (other == key) = false := by simpa using h
    simp only [slot?, link, List.lookup_cons, this, Assoc.lookup_filter_ne, h, if_false]

@[simp, grind =]
theorem lookup_unlink (c : Cache σ) (key other : Key) :
    (c.unlink key).slot? other = if other = key then none else c.slot? other := by
  simp only [slot?, unlink, Assoc.lookup_filter_ne]

end Cache

end SessionCache
