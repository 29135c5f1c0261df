import SessionCache.Json.Tree

/-!
# JSON values

A `Value` is what a document means: its numbers fit a machine number, its strings are texts, and
each object is a map, kept in ascending order of its names.

* `Tree.toValue?` decides what a document means; the last field of a name counts.
* `Value.canonical` puts the fields of every object in ascending order.
-/

namespace SessionCache.Json

/-- A JSON value. -/
inductive Value where
  | null
  | bool (b : Bool)
  | number (n : Number)
  | string (s : String)
  | array (items : List Value)
  | object (fields : List (String × Value))
  deriving Inhabited

/-- Inserts a field by its name, in ascending order; a field of the same name is replaced. -/
def insertField {α : Type} (name : String) (value : α) : List (String × α) → List (String × α)
  | [] => [(name, value)]
  | (other, x) :: rest =>
    if name < other then (name, value) :: (other, x) :: rest
    else if name = other then (name, value) :: rest
    else (other, x) :: insertField name value rest

/-- `insertField` of every field: ascending names, and the last value of each. -/
def sortFields {α : Type} (fields : List (String × α)) : List (String × α) :=
  fields.foldl (fun sorted field => insertField field.1 field.2 sorted) []

mutual

/-- The value of a document that is at most `depth` deep, if every string is valid Unicode and every
number fits. -/
def Tree.toValue? (depth : Nat) : Tree → Option Value
  | .null => some .null
  | .bool b => some (.bool b)
  | .number n => n.toNumber?.map .number
  | .string s => s.map .string
  | .array items =>
    match depth with
    | 0 => none
    | d + 1 => (Tree.itemsToValues? d items).map .array
  | .object fields =>
    match depth with
    | 0 => none
    | d + 1 => (Tree.fieldsToValues? d fields).map fun fields => .object (sortFields fields)

/-- `toValue?` of every item. -/
def Tree.itemsToValues? (depth : Nat) : List Tree → Option (List Value)
  | [] => some []
  | item :: rest => do
    let value ← Tree.toValue? depth item
    let values ← Tree.itemsToValues? depth rest
    return value :: values

/-- `toValue?` of every field, in the order written. -/
def Tree.fieldsToValues? (depth : Nat) :
    List (Option String × Tree) → Option (List (String × Value))
  | [] => some []
  | (name, item) :: rest => do
    let name ← name
    let value ← Tree.toValue? depth item
    let values ← Tree.fieldsToValues? depth rest
    return (name, value) :: values

end

namespace Value

/-- The limit on the depth of a document. -/
def depthLimit : Nat := 127

/-- Reads all of `text` as one value. -/
def ofText? (text : String) : Option Value :=
  (Tree.parse? (Text.Letters.ofText text)).bind (Tree.toValue? depthLimit)

mutual

/-- The same value with `sortFields` at every object. -/
def canonical : Value → Value
  | .array items => .array (canonicalItems items)
  | .object fields => .object (sortFields (canonicalFields fields))
  | other => other

/-- The canonical forms of an array's items. -/
def canonicalItems : List Value → List Value
  | [] => []
  | item :: rest => canonical item :: canonicalItems rest

/-- The canonical forms of an object's fields. -/
def canonicalFields : List (String × Value) → List (String × Value)
  | [] => []
  | (name, value) :: rest => (name, canonical value) :: canonicalFields rest

end

/-- The value of the field `name` of an object. -/
def field? (name : String) : Value → Option Value
  | .object fields => fields.lookup name
  | _ => none

/-- The text, if it is one. -/
def text? : Value → Option String
  | .string s => some s
  | _ => none

/-- The items, if it is an array. -/
def items? : Value → Option (List Value)
  | .array items => some items
  | _ => none

/-- The integer, if it is one. -/
def int? : Value → Option Int
  | .number (.int n) => some n
  | _ => none

/-- The truth value, if it is one. -/
def bool? : Value → Option Bool
  | .bool b => some b
  | _ => none

/-- `n` as a JSON number. -/
def nat (n : Nat) : Value := .number (.int n)

/-- `null` for `none`. -/
def orNull (v : Option Value) : Value := v.getD .null

end Value

end SessionCache.Json
