import SessionCache.Decimal.Double
import SessionCache.Json.Value

/-!
# Carts

A cart is a session state: an owner, a list of items, a count of completed calls, and perhaps a
note. How any state goes into records and comes out of them is a `Codec`; `Cart.codec` is that of
carts. A cart whose owner begins with an exclamation mark holds on to something that cannot be
written.

* `Cart.ofValue?_toValue`: what is written reads back.
-/

namespace SessionCache

open Json

/-- How a session state is written as JSON and read from it. -/
structure Codec (σ : Type) where
  /-- The JSON of a state, or why there is none. -/
  encode : σ → Except String Value
  /-- The state of a JSON value, if it is one. -/
  decode : Value → Option σ

/-- A shopping cart. -/
structure Cart where
  owner : String := ""
  items : List String := []
  calls : UInt64 := 0
  note : Option String := none
  deriving DecidableEq, Repr

namespace Cart

/-- The fields of a cart, in the order of the declaration. -/
def toValue (cart : Cart) : Value :=
  .object [("owner", .string cart.owner), ("items", .array (cart.items.map .string)),
    ("calls", .nat cart.calls.toNat), ("note", Value.orNull (cart.note.map .string))]

/-- The strings of a list of JSON values, if all are strings. -/
def texts? : List Value → Option (List String)
  | [] => some []
  | .string s :: rest => (texts? rest).map (s :: ·)
  | _ :: _ => none

/-- A JSON number as an unsigned 64-bit integer. -/
def count? : Value → Option UInt64
  | .number (.int n) => if fitsUnsigned 64 n then some (UInt64.ofNat n.toNat) else none
  | _ => none

/-- A JSON string, or `null`. -/
def note? : Value → Option (Option String)
  | .null => some none
  | .string s => some (some s)
  | _ => none

/-- Reads the four fields. -/
def ofParts? (owner items calls note : Value) : Option Cart := do
  let .string owner := owner | none
  let .array items := items | none
  return { owner, items := ← texts? items, calls := ← count? calls, note := ← note? note }

/-- Reads an object, whose `note` may be missing and whose other fields are skipped, or an array of
the four fields. -/
def ofValue? : Value → Option Cart
  | .object fields => do
    ofParts? (← fields.lookup "owner") (← fields.lookup "items") (← fields.lookup "calls")
      ((fields.lookup "note").getD .null)
  | .array [owner, items, calls, note] => ofParts? owner items calls note
  | _ => none

/-- Whether `owner` begins with `!`; such a cart is not encoded. -/
def holdsSocket (cart : Cart) : Bool := cart.owner.toList.head? == some '!'

/-- The codec of carts. -/
def codec : Codec Cart where
  encode cart := if cart.holdsSocket then .error "holds a live socket" else .ok cart.toValue
  decode := ofValue?

/-- One more in `calls`, which stays at its greatest value. -/
def countCall (cart : Cart) : Cart :=
  { cart with calls := if cart.calls.toNat + 1 < twoTo 64 then cart.calls + 1 else cart.calls }

theorem texts?_map (items : List String) : texts? (items.map .string) = some items := by
  induction items with
  | nil => rfl
  | cons s rest ih => simp [texts?, ih]

@[simp] theorem count?_nat (n : UInt64) : count? (.nat n.toNat) = some n := by
  have h := n.toNat_lt
  have hb : twoTo 64 = 18446744073709551616 := rfl
  simp only [Value.nat, count?]
  rw [if_pos ⟨by omega, by omega⟩]
  simp

theorem note?_orNull (note : Option String) :
    note? (Value.orNull (note.map .string)) = some note := by
  cases note <;> rfl

@[simp] theorem ofValue?_toValue (cart : Cart) : ofValue? cart.toValue = some cart := by
  simp [toValue, ofValue?, ofParts?, List.lookup_cons, texts?_map, count?_nat, note?_orNull]

end Cart

/-- JSON values that are their own encoding. -/
def Codec.json : Codec Value where
  encode v := .ok v.canonical
  decode := some

end SessionCache
