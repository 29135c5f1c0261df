import SessionCache.Session.Key
import SessionCache.Session.Stage

/-!
# What can go wrong

Errors are causes; their wording is in the `message` functions.

* `StoreError`: a storage call failed.
* `RecordFault`: a stored record cannot be turned into a session.
* `CacheError`: an operation on the cache failed. `CacheError.isTransient` tells the failures that
  may go away by themselves; only running short of capacity and meeting a busy session do.
-/

namespace SessionCache

/-- The causes that a failed input or output operation is told apart by. -/
inductive IoCause where
  | notFound
  | notDirectory
  | isDirectory
  | alreadyExists
  | permissionDenied
  | other (message : String)
  deriving DecidableEq, Repr

/-- The text of an `IoCause`. -/
def IoCause.message : IoCause → String
  | .notFound => "No such file or directory (os error 2)"
  | .notDirectory => "Not a directory (os error 20)"
  | .isDirectory => "Is a directory (os error 21)"
  | .alreadyExists => "File exists (os error 17)"
  | .permissionDenied => "Permission denied (os error 13)"
  | .other message => message

/-- A failure of a backend. -/
inductive StoreError where
  | io (cause : IoCause)
  | database (message : String)
  | invalidRecord (name : String)
  deriving DecidableEq, Repr

/-- The text of a `StoreError`. -/
def StoreError.message : StoreError → String
  | .io cause => "IO error: " ++ cause.message
  | .database message => "Database error: " ++ message
  | .invalidRecord name => "Invalid record name: " ++ name

/-- Why `Envelope.decode` or the codec rejects a record. -/
inductive RecordFault where
  /-- The bytes are no envelope. -/
  | malformed
  /-- `format` is not `recordFormat`. -/
  | unsupportedFormat (format : Nat)
  /-- `key` is not that of the record. -/
  | belongsTo (key : Key)
  /-- The codec does not decode the state. -/
  | unreadableState
  deriving DecidableEq

/-- The `format` that is written, and the only one that is read. -/
def recordFormat : Nat := 1

/-- The text of a `RecordFault`. -/
def RecordFault.message : RecordFault → String
  | .malformed => "malformed record"
  | .unsupportedFormat format =>
    "unsupported record format " ++ toString format ++ " (expected " ++ toString recordFormat ++ ")"
  | .belongsTo key => "record belongs to session " ++ key.text
  | .unreadableState => "unreadable session state"

/-- The failures of operations on the cache. -/
inductive CacheError where
  | notFound (key : Key)
  | inUse (key : Key)
  /-- `maxSize` sessions are checked out, and `blockOnFull = false`. -/
  | allInUse (limit : Nat)
  /-- `blockTimeout` passed without room. -/
  | waitedInVain (millis : Nat)
  /-- `victim?` could not be passivated. -/
  | evictionFailed (victim : Key) (cause : CacheError)
  | serialization (key : Key) (message : String)
  | deserialization (key : Key) (fault : RecordFault)
  /-- A callback of `phase` failed with `message`. -/
  | lifecycle (key : Key) (phase : Phase) (message : String)
  | illegalTransition (source : Stage) (event : Event)
  | store (error : StoreError)
  /-- The operation would block on a slot that another one holds. -/
  | stalled
  deriving DecidableEq

namespace CacheError

/-- The text of a `CacheError`. -/
def message : CacheError → String
  | .notFound key => "Session not found: " ++ key.text
  | .inUse key => "Session currently in use: " ++ key.text
  | .allInUse limit =>
    "Cache capacity exhausted: all " ++ toString limit ++ " resident sessions are in use"
  | .waitedInVain millis =>
    "Cache capacity exhausted: no session became idle within " ++ toString millis ++ "ms"
  | .evictionFailed victim cause =>
    "Cache capacity exhausted: could not passivate session " ++ victim.text ++ ": " ++
      cause.message
  | .serialization key message =>
    "Failed to serialize session " ++ key.text ++ ": " ++ message
  | .deserialization key fault =>
    "Failed to deserialize session " ++ key.text ++ ": " ++ fault.message
  | .lifecycle key phase message =>
    "Lifecycle hook " ++ phase.name ++ " failed for session " ++ key.text ++ ": " ++ message
  | .illegalTransition source event =>
    "Illegal transition: " ++ event.name ++ " from " ++ source.name
  | .store error => "Store error: " ++ error.message
  | .stalled => "Operation stalled"

/-- `allInUse`, `waitedInVain` and `evictionFailed`. -/
def isCapacity : CacheError → Bool
  | .allInUse _ | .waitedInVain _ | .evictionFailed _ _ => true
  | _ => false

/-- Whether a retry may succeed: `.inUse` and a shortage of capacity. -/
def isTransient : CacheError → Bool
  | .inUse _ => true
  | e => e.isCapacity

/-- `.store` only. -/
def isStore : CacheError → Bool
  | .store _ => true
  | _ => false

end CacheError

end SessionCache
