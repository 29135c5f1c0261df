import SessionCache.Record.Cart
import SessionCache.Record.Envelope
import SessionCache.Store.Backend

/-!
# The store of passivated sessions

A `Store` is a backend behind a gate at which any call can be made to fail. On top of the five
calls stand the operations on sessions: they write and read records, and tell what went wrong in
terms of sessions.

* `Store.activate` deletes a record that it cannot decode; `Store.inspect` deletes nothing.
* `Store.purgeOlderThan` deletes the records written strictly before a time, in the order of the
  listing, and stops at the first failure.
-/

namespace SessionCache

open Json

/-- A call of a backend, as `Store.fault` sees it. -/
inductive StoreCall where
  | put (key : Key)
  | get (key : Key)
  | delete (key : Key)
  | contains (key : Key)
  | list
  deriving DecidableEq

/-- A backend, and the gate that each call of it passes. -/
structure Store where
  backend : Backend
  /-- The order in which `Store.list` gives the records of keys. -/
  precedes : Key → Key → Bool
  /-- Whether `Store.contains` calls `get` on the backend instead of `contains`. -/
  containsByGet : Bool := false
  /-- `fault n call` is the error with which the `n`-th call fails instead of reaching the
  backend. -/
  fault : Nat → StoreCall → Option StoreError := fun _ _ => none
  /-- How many calls passed or failed at the gate. -/
  calls : Nat := 0

/-- A computation on a `Store` that may fail with a `StoreError`; what it did before it failed stays
done. -/
abbrev StoreM := ExceptT StoreError (StateM Store)

/-- A computation on a `Store` that may fail with a `CacheError`. -/
abbrev SessionStoreM := ExceptT CacheError (StateM Store)

namespace Store

/-! ## Calls -/

/-- Counts `call`, and fails as `Store.fault` says. -/
def pass (call : StoreCall) : StoreM Unit := do
  let s ← getThe Store
  set { s with calls := s.calls + 1 }
  match s.fault s.calls call with
  | some e => throw e
  | none => pure ()

/-- Takes over the backend that `result` leaves, and gives back its answer. -/
def answer {α : Type} (result : Except StoreError α × Backend) : StoreM α := do
  modifyThe Store fun s => { s with backend := result.2 }
  match result.1 with
  | .ok a => pure a
  | .error e => throw e

/-- Gives back `result` and leaves the backend as it is. -/
def reply {α : Type} (result : Except StoreError α) : StoreM α :=
  match result with
  | .ok a => pure a
  | .error e => throw e

/-- Writes `bytes` under `key`, with the time `now`. -/
def put (now : Instant) (key : Key) (bytes : ByteArray) : StoreM Unit := do
  pass (.put key)
  answer ((← getThe Store).backend.put now key bytes)

/-- The bytes under `key`, if there are any. -/
def get (key : Key) : StoreM (Option ByteArray) := do
  pass (.get key)
  reply ((← getThe Store).backend.get key)

/-- Deletes what is under `key`; `true` if there was something. -/
def delete (key : Key) : StoreM Bool := do
  pass (.delete key)
  answer ((← getThe Store).backend.delete key)

/-- Whether something is under `key`. -/
def contains (key : Key) : StoreM Bool := do
  if (← getThe Store).containsByGet then
    return (← get key).isSome
  else
    pass (.contains key)
    reply ((← getThe Store).backend.contains key)

/-- `metas` in the order of `precedes` on their keys; equal keys stay in their order. -/
def sorted (precedes : Key → Key → Bool) (metas : List RecordMeta) : List RecordMeta :=
  metas.mergeSort fun a b => !precedes b.key a.key

/-- The `RecordMeta` of every record, in the order of `Store.precedes`. -/
def list : StoreM (List RecordMeta) := do
  pass .list
  let s ← getThe Store
  return sorted s.precedes (← reply s.backend.list)

/-- The answer of `list` where no fault comes in between; no call is made. -/
def listing (s : Store) : Except StoreError (List RecordMeta) :=
  s.backend.list.map (sorted s.precedes)

/-! ## Sessions -/

/-- Runs `action`, and turns an error `e` of it into `CacheError.store e`. -/
def lifted {α : Type} (action : StoreM α) : SessionStoreM α := ExceptT.adapt CacheError.store action

/-- Encodes `state` and writes the record of `key` with the time `now`; `.serialization` if
`codec.encode` fails. -/
def passivate {σ : Type} (codec : Codec σ) (now : Instant) (key : Key) (state : σ) :
    SessionStoreM Unit :=
  match codec.encode state with
  | .error message => throw (.serialization key message)
  | .ok value => lifted (put now key (Envelope.encode key now value))

/-- The bytes of the record of `key`, or `.notFound key`. -/
def bytesOf (key : Key) : SessionStoreM ByteArray := do
  match ← lifted (get key) with
  | some bytes => pure bytes
  | none => throw (.notFound key)

/-- The state in the bytes of a record: `Envelope.decode`, then `codec.decode`. -/
def stateOf {σ : Type} (codec : Codec σ) (key : Key) (bytes : ByteArray) :
    Except RecordFault σ := do
  match codec.decode (← Envelope.decode key bytes) with
  | some state => .ok state
  | none => .error .unreadableState

/-- Reads the state of `key`. A record for which `stateOf` fails is deleted, and the answer is
`.deserialization`. -/
def activate {σ : Type} (codec : Codec σ) (key : Key) : SessionStoreM σ := do
  match stateOf codec key (← bytesOf key) with
  | .ok state => pure state
  | .error fault =>
    let _ ← lifted (delete key)
    throw (.deserialization key fault)

/-- The state in the record of `key` as JSON. A record that does not decode stays. -/
def inspect (key : Key) : SessionStoreM Value := do
  match Envelope.decode key (← bytesOf key) with
  | .ok value => pure value
  | .error fault => throw (.deserialization key fault)

/-- `delete` with its error as a `CacheError`. -/
def remove (key : Key) : SessionStoreM Bool := lifted (delete key)

/-- `contains` with its error as a `CacheError`. -/
def holds (key : Key) : SessionStoreM Bool := lifted (contains key)

/-- `list` with its error as a `CacheError`. -/
def records : SessionStoreM (List RecordMeta) := lifted list

/-- Deletes those of the given records with `storedAt < cutoff`, and gives back the keys for which
`delete` answered `true`. The first error ends it, and the keys deleted before are not told. -/
def purge (cutoff : Instant) : List RecordMeta → StoreM (List Key)
  | [] => pure []
  | m :: rest => do
    let purged ← if m.storedAt < cutoff then delete m.key else pure false
    let others ← purge cutoff rest
    return if purged then m.key :: others else others

/-- Lists the records and runs `purge` over them. -/
def purgeOlderThan (cutoff : Instant) : SessionStoreM (List Key) := do
  let metas ← records
  lifted (purge cutoff metas)

end Store

end SessionCache
