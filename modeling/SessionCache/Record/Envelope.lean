import SessionCache.Decimal.Double
import SessionCache.Json.Printer
import SessionCache.Session.Error
import SessionCache.Time.Timestamp

/-!
# Stored records

A passivated session is stored as one JSON object: the number of the format, the key, the time of
passivation and the state. The four fields may come in any order, among others that are passed
over, or as an array of exactly the four.

* `Envelope.encode` writes a record.
* `Envelope.decode` takes a record apart in stages, and the first fault counts: the bytes as a
  whole, then the format, then the key.
-/

namespace SessionCache

open Json Text

/-- The four fields of a record. `passivated_at` has to be a timestamp, and is not used. -/
structure Envelope where
  format : Nat
  key : Key
  passivatedAt : Stamp
  state : Value

namespace Envelope

/-- The JSON of a record. -/
def toValue (key : Key) (now : Instant) (state : Value) : Value :=
  .object [("format", .nat recordFormat), ("key", .string key.text),
    ("passivated_at", .string (Timestamp.text now)), ("state", state)]

/-- The bytes of a record: its JSON without blanks. -/
def encode (key : Key) (now : Instant) (state : Value) : ByteArray :=
  (toValue key now state).compact.toUTF8

/-- How deep the state of a record may be: `Value.depthLimit` less the envelope. -/
def stateDepth : Nat := Value.depthLimit - 1

/-- Reads `format`, an unsigned 32-bit integer. -/
def formatOf? (tree : Tree) : Option Nat := do
  let .number n := tree | none
  let .int n ← n.toNumber? | none
  if fitsUnsigned 32 n then some n.toNat else none

/-- Reads `key`, in any `Spelling`. -/
def keyOf? (tree : Tree) : Option Key := do
  let .string s := tree | none
  Key.ofText? (← s)

/-- Reads `passivated_at`. -/
def timeOf? (tree : Tree) : Option Stamp := do
  let .string s := tree | none
  Timestamp.ofLenientText? (← s)

/-- The value of the field `name`, if there is exactly one. -/
def only? (name : String) (fields : List (String × Tree)) : Option Tree :=
  match fields.filter (·.1 = name) with
  | [(_, tree)] => some tree
  | _ => none

/-- The fields, if every name is valid Unicode. -/
def named? : List (Option String × Tree) → Option (List (String × Tree))
  | [] => some []
  | (name, tree) :: rest => do
    let name ← name
    let rest ← named? rest
    return (name, tree) :: rest

/-- Reads the four fields. -/
def ofParts? (format key time state : Tree) : Option Envelope := do
  return {
    format := ← formatOf? format
    key := ← keyOf? key
    passivatedAt := ← timeOf? time
    state := ← state.toValue? stateDepth }

/-- Reads an object or an array of the four fields. -/
def ofTree? : Tree → Option Envelope
  | .object fields => do
    let fields ← named? fields
    ofParts? (← only? "format" fields) (← only? "key" fields) (← only? "passivated_at" fields)
      (← only? "state" fields)
  | .array [format, key, time, state] => ofParts? format key time state
  | _ => none

/-- The state in the record of `key`, or what is wrong with it: its JSON, its `format`, or its
`key`, in this order. -/
def decode (key : Key) (bytes : ByteArray) : Except RecordFault Value :=
  match (Tree.parse? (Letters.ofBytes bytes)).bind ofTree? with
  | none => .error .malformed
  | some envelope =>
    if envelope.format ≠ recordFormat then .error (.unsupportedFormat envelope.format)
    else if envelope.key ≠ key then .error (.belongsTo envelope.key)
    else .ok envelope.state

end Envelope

end SessionCache
