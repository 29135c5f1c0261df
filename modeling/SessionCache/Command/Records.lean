import SessionCache.Command.Opening
import SessionCache.Command.Output

/-!
# Commands about records

* `listRecords` lists the records, the oldest first.
* `removeRecord` deletes the record of a key.
* `purgeRecords` deletes the records older than an age; `cutoff?` is the time before which they
  were written.
-/

namespace SessionCache.Command

open Json

/-- The time in a `RecordMeta`. -/
def writtenAt (m : RecordMeta) : Stamp := ⟨m.storedAt, m.leap⟩

/-- A `RecordMeta` as JSON. -/
def recordValue (m : RecordMeta) : Value :=
  .object [("key", .string m.key.text), ("size", .nat m.size),
    ("stored_at", .string (Timestamp.text (writtenAt m)))]

/-- A `RecordMeta` in one line. -/
def recordLine (m : RecordMeta) : String :=
  "  " ++ m.key.text ++ "  " ++ padLeft 8 (toString m.size) ++ " B  " ++
    Timestamp.second (writtenAt m)

/-- Sorted by `storedAt`. -/
def byAge (metas : List RecordMeta) : List RecordMeta :=
  metas.mergeSort fun a b => (writtenAt a).precedes (writtenAt b)

/-- The output of `store list`. -/
def listing (json : Bool) (kind : StoreKind) (metas : List RecordMeta) : String :=
  if json then unlines [(Value.array (metas.map recordValue)).pretty]
  else if metas.isEmpty then unlines ["No passivated sessions"]
  else
    unlines (["Passivated Sessions", Summary.rule 70, ""] ++ metas.map recordLine ++
      ["", "  " ++ toString metas.length ++ " record(s) in " ++ kind.name ++ " store"])

/-- `store list`. -/
def listRecords (json : Bool) (resolved : Resolved) : Action Output := do
  let opened ← Action.openStore resolved
  let metas ← Action.withSessions opened .listing Store.records
  return .text (listing json resolved.store (byAge metas))

/-- The output of `store remove`. -/
def removalReport (json : Bool) (key : Key) (removed : Bool) : String :=
  if json then document (.object [("key", .string key.text), ("removed", .bool removed)])
  else if removed then unlines ["✓ Removed " ++ key.text]
  else unlines ["· No record for " ++ key.text]

/-- `store remove`, of the key with this text. -/
def removeRecord (json : Bool) (resolved : Resolved) (text : String) : Action Output := do
  let opened ← Action.openStore resolved
  match Key.ofText? text with
  | none => throw (.sessionKey text)
  | some key =>
    let removed ← Action.withSessions opened .removal (Store.remove key)
    return .text (removalReport json key removed)

/-- `now - seconds`, if that is in the calendar. -/
def cutoff? (now : Instant) (seconds : Nat) : Option Instant := do
  now.minus? (← Span.ofDuration? (.ofSeconds seconds))

/-- The output of `store purge`. -/
def purgeReport (json : Bool) (cutoff : Instant) (purged : List Key) : String :=
  if json then
    document (.object [("cutoff", .string (Timestamp.text cutoff)),
      ("purged", .array (purged.map fun key => .string key.text))])
  else
    unlines ["✓ Purged " ++ toString purged.length ++ " record(s) stored before " ++
      Timestamp.second cutoff]

/-- `store purge --older-than`, in seconds. -/
def purgeRecords (json : Bool) (resolved : Resolved) (seconds : Nat) : Action Output := do
  let opened ← Action.openStore resolved
  match cutoff? (← Action.site).now seconds with
  | none => throw (.age seconds)
  | some cutoff =>
    let purged ← Action.withSessions opened .purge (Store.purgeOlderThan cutoff)
    return .text (purgeReport json cutoff purged)

end SessionCache.Command
