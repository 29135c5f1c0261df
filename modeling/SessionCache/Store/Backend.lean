import SessionCache.Store.Directory
import SessionCache.Store.Table

/-!
# Backends

A backend keeps records: in memory, in a directory, or in a table. All of them answer the same
five calls. Writing and deleting give the backend afterwards along with the answer, because a
call that fails may have changed something.
-/

namespace SessionCache

/-- A place for records: in memory, in a directory, or in a table. -/
inductive Backend where
  | memory (m : Memory)
  | directory (path : String) (d : Directory)
  | table (t : Table)
  deriving DecidableEq

namespace Backend

/-- The name of the kind of backend, as it is displayed. -/
def name : Backend → String
  | .memory _ => "memory"
  | .directory _ _ => "file"
  | .table _ => "sqlite"

/-- Writes the record of `key` with the time `now`, in place of the one that was there. -/
def put (b : Backend) (now : Instant) (key : Key) (bytes : ByteArray) :
    Except StoreError Unit × Backend :=
  match b with
  | .memory m => (.ok (), .memory (m.put now key bytes))
  | .directory path d =>
    let (answer, d) := d.put now key bytes
    (answer, .directory path d)
  | .table t => (.ok (), .table (t.put now key bytes))

/-- The bytes of the record of `key`, if there is one. -/
def get (b : Backend) (key : Key) : Except StoreError (Option ByteArray) :=
  match b with
  | .memory m => .ok (m.get key)
  | .directory _ d => d.get key
  | .table t => .ok (t.get key)

/-- Deletes the record of `key`; `true` if there was one. -/
def delete (b : Backend) (key : Key) : Except StoreError Bool × Backend :=
  match b with
  | .memory m =>
    let (found, m) := m.delete key
    (.ok found, .memory m)
  | .directory path d =>
    let (answer, d) := d.delete key
    (answer, .directory path d)
  | .table t =>
    let (found, t) := t.delete key
    (.ok found, .table t)

/-- Whether there is a record of `key`. -/
def contains (b : Backend) (key : Key) : Except StoreError Bool :=
  match b with
  | .memory m => .ok (m.contains key)
  | .directory _ d => d.contains key
  | .table t => .ok (t.contains key)

/-- The `RecordMeta` of every record. -/
def list (b : Backend) : Except StoreError (List RecordMeta) :=
  match b with
  | .memory m => .ok m.list
  | .directory path d => d.list path
  | .table t => t.list

end Backend

end SessionCache
