import SessionCache.Store.Memory
import SessionCache.Time.Timestamp

/-!
# Records in a database table

One row a record: the text of the key, the bytes, and the text of the time of writing. The text of
the key identifies the row. Rows are found by the exact text that a key is written with, while a
listing takes any spelling of a key for that key.

* `Table`: the rows, and what the database does with them.
* `Database`, `Database.Format`: a table in a file. How a file is laid out is up to the library that
  reads and writes it; what is asked of that is `Database.Format.Lawful`.
-/

namespace SessionCache

/-- One row. -/
structure Row where
  key : String
  payload : ByteArray
  storedAt : String
  deriving DecidableEq

/-- The rows in the order of their insertion, each `key` at most once. -/
structure Table where
  rows : List Row := []
  deriving DecidableEq

namespace Table

/-- Inserts `row` instead of the row with its `key`. -/
def insert (t : Table) (row : Row) : Table := ⟨t.rows.filter (·.key ≠ row.key) ++ [row]⟩

/-- The row of `key`, by its text. -/
def find? (t : Table) (key : Key) : Option Row := t.rows.find? (·.key = key.text)

/-- Inserts the row of `key` with the time `now` as a text. -/
def put (t : Table) (now : Instant) (key : Key) (bytes : ByteArray) : Table :=
  t.insert ⟨key.text, bytes, Timestamp.numericText now⟩

/-- The payload in the row of `key`, if there is one. -/
def get (t : Table) (key : Key) : Option ByteArray := (t.find? key).map (·.payload)

/-- Deletes the row of `key`; `true` if there was one. -/
def delete (t : Table) (key : Key) : Bool × Table :=
  ((t.find? key).isSome, ⟨t.rows.filter (·.key ≠ key.text)⟩)

/-- Whether there is a row of `key`. -/
def contains (t : Table) (key : Key) : Bool := (t.find? key).isSome

/-- The `RecordMeta` that a row says: its key is read before its time, and a text that is no key or
no time is `.invalidRecord`. -/
def rowMeta (row : Row) : Except StoreError RecordMeta :=
  match Key.ofText? row.key with
  | none => .error (.invalidRecord row.key)
  | some key =>
    match Timestamp.ofText? row.storedAt with
    | none => .error (.invalidRecord (key.text ++ ": bad timestamp"))
    | some stamp => .ok ⟨key, row.payload.size, stamp.instant, stamp.leap⟩

/-- `rowMeta` of each row; the first error is the answer. -/
def list (t : Table) : Except StoreError (List RecordMeta) := t.rows.mapM rowMeta

end Table

/-! ## Files -/

/-- What a database file holds. -/
structure Database where
  /-- The table of records; `none` in an empty file. -/
  table : Option Table := none
  /-- Whether the journal mode is a write-ahead log. -/
  logged : Bool := false
  deriving DecidableEq

/-- How a `Database` is laid out in the bytes of a file. -/
structure Database.Format where
  toBytes : Database → ByteArray
  /-- The database in the bytes of a file; `none` if they are no database. -/
  ofBytes? : ByteArray → Option Database

/-- What a database engine warrants: a table is read as it was written, and an empty file is a
database without one. -/
structure Database.Format.Lawful (format : Format) : Prop where
  ofBytes?_empty : format.ofBytes? .empty = some {}
  ofBytes?_toBytes : ∀ table logged,
    format.ofBytes? (format.toBytes { table := some table, logged }) = some { table := some table, logged }

end SessionCache
