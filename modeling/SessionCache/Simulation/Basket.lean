import SessionCache.Decimal.Double
import SessionCache.Record.Cart

/-!
# Shopping baskets

The sessions of a simulation: a customer, what was put in, and how many calls were completed.

* `Basket.codec`: baskets in records.
-/

namespace SessionCache

open Json

/-- An item of a basket. -/
structure LineItem where
  sku : String
  quantity : Nat
  deriving DecidableEq, Repr

/-- The session state of a simulation. -/
structure Basket where
  customer : String := ""
  /-- Latest item first. -/
  items : List LineItem := []
  /-- The number of completed calls. -/
  calls : Nat := 0
  deriving DecidableEq, Repr

/-- A JSON number as an integer of this many bits. -/
def word? (bits : Nat) : Value → Option Nat
  | .number (.int n) => if fitsUnsigned bits n then some n.toNat else none
  | _ => none

namespace LineItem

/-- An item as JSON. -/
def toValue (item : LineItem) : Value :=
  .object [("sku", .string item.sku), ("quantity", .nat item.quantity)]

/-- Reads the two fields of an item. -/
def ofParts? (sku quantity : Value) : Option LineItem := do
  return { sku := ← sku.text?, quantity := ← word? 32 quantity }

/-- The item of a JSON object or array. -/
def ofValue? : Value → Option LineItem
  | .object fields => do ofParts? (← fields.lookup "sku") (← fields.lookup "quantity")
  | .array [sku, quantity] => ofParts? sku quantity
  | _ => none

end LineItem

namespace Basket

/-- Adds an item. -/
def add (b : Basket) (item : LineItem) : Basket := { b with items := item :: b.items }

/-- One more in `calls`. -/
def countCall (b : Basket) : Basket := { b with calls := b.calls + 1 }

/-- A basket as JSON, with the items in the order in which they were added. -/
def toValue (b : Basket) : Value :=
  .object [("customer", .string b.customer),
    ("items", .array (b.items.reverse.map LineItem.toValue)), ("calls", .nat b.calls)]

/-- Reads the three fields of a basket. -/
def ofParts? (customer items calls : Value) : Option Basket := do
  return {
    customer := ← customer.text?
    items := (← (← items.items?).mapM LineItem.ofValue?).reverse
    calls := ← word? 64 calls }

/-- The basket of a JSON object or array. -/
def ofValue? : Value → Option Basket
  | .object fields => do
    ofParts? (← fields.lookup "customer") (← fields.lookup "items") (← fields.lookup "calls")
  | .array [customer, items, calls] => ofParts? customer items calls
  | _ => none

/-- The codec of baskets. -/
def codec : Codec Basket where
  encode b := .ok b.toValue
  decode := ofValue?

end Basket

end SessionCache
