import SessionCache.Association
import SessionCache.Session.Error
import SessionCache.Text.Letters
import SessionCache.Time.Instant

/-!
# Records in memory

The simplest place for records: a map from keys to bytes with the time of writing.

* `RecordMeta` describes one stored record, wherever it is kept.
* `Memory.get_put`, `Memory.get_delete`: writing and deleting, seen through `Memory.get`.
-/

namespace SessionCache

/-- What is known of a record without its bytes: `key`, `size` and the time of writing. That time is
`storedAt`, or in the leap second after it, `leap` nanoseconds after its start. -/
structure RecordMeta where
  key : Key
  size : Nat
  storedAt : Instant
  leap : Option Nat := none
  deriving DecidableEq

/-- One record in memory. -/
structure MemoryRecord where
  key : Key
  bytes : ByteArray
  storedAt : Instant
  deriving DecidableEq

/-- Records in memory, each key at most once, in the order of writing. -/
structure Memory where
  records : List MemoryRecord := []
  deriving DecidableEq

namespace Memory

/-- The record of a key. -/
def find? (m : Memory) (key : Key) : Option MemoryRecord := m.records.find? (·.key = key)

/-- Writes a record of `key` with the time `now`, in place of the one that was there. -/
def put (m : Memory) (now : Instant) (key : Key) (bytes : ByteArray) : Memory :=
  ⟨m.records.filter (·.key ≠ key) ++ [⟨key, bytes, now⟩]⟩

/-- The bytes of the record of `key`, if there is one. -/
def get (m : Memory) (key : Key) : Option ByteArray := (m.find? key).map (·.bytes)

/-- Deletes the record of `key`; `true` if there was one. -/
def delete (m : Memory) (key : Key) : Bool × Memory :=
  ((m.find? key).isSome, ⟨m.records.filter (·.key ≠ key)⟩)

/-- Whether there is a record of `key`. -/
def contains (m : Memory) (key : Key) : Bool := (m.find? key).isSome

/-- The `RecordMeta` of every record. -/
def list (m : Memory) : List RecordMeta :=
  m.records.map fun r => { key := r.key, size := r.bytes.size, storedAt := r.storedAt }

@[simp, grind =]
theorem get_put (m : Memory) (now : Instant) (key other : Key) (bytes : ByteArray) :
    (m.put now key bytes).get other = if other = key then some bytes else m.get other := by
  rw [get, find?, put, Assoc.find?_replace MemoryRecord.key _ ⟨key, bytes, now⟩]
  split <;> rfl

@[simp, grind =]
theorem get_delete (m : Memory) (key other : Key) :
    (m.delete key).2.get other = if other = key then none else m.get other := by
  rw [get, find?, delete, Assoc.find?_filter_ne MemoryRecord.key]
  split <;> rfl

end Memory

end SessionCache
