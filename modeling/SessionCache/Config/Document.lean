import SessionCache.Config.Layer
import SessionCache.Toml.Document
import SessionCache.Toml.Written

/-!
# Layers in TOML

A document has a table for each section. A section may also be an array of its fields in order, or
a date, which sets none of them, and a store kind may be written as the one name in a table. Names
that are not known are passed over.

* `Layer.ofToml?` reads a layer.
* `Layer.toToml` writes one: the sections and fields that are set, in a fixed order.
-/

namespace SessionCache

open Toml

/-! ## Reading -/

/-- The node of a field of a section: by its name in a table, by its place in an array. -/
def fieldNode? (name : String) (place : Nat) : Node → Option Node
  | .table _ entries => entries.lookup name
  | node => node.items?.bind (·[place]?)

/-- Whether a node can be read as a section: a table, an array, or a date or time, which has no
fields. -/
def isSection : Node → Bool
  | .table _ _ | .time => true
  | node => node.items?.isSome

/-- `read?` of a field, where a missing one gives `some none`. -/
def readField? {α : Type} (read? : Node → Option α) (node : Option Node) : Option (Option α) :=
  match node with
  | none => some none
  | some node => (read? node).map some

/-- A nonnegative integer. -/
def natural? : Node → Option Nat
  | .integer n => if 0 ≤ n then some n.toNat else none
  | _ => none

/-- A boolean. -/
def boolean? : Node → Option Bool
  | .boolean b => some b
  | _ => none

/-- A string. -/
def text? : Node → Option String
  | .string s => some s
  | _ => none

/-- An empty array or table. -/
def isEmptyNode : Node → Bool
  | .table _ entries => entries.isEmpty
  | .array items => items.isEmpty
  | _ => false

/-- A `StoreKind` by its name, or as a table of one entry whose name it is and whose content is
empty. -/
def storeKind? : Node → Option StoreKind
  | .string s => StoreKind.ofName? s
  | .table _ [(name, content)] => if isEmptyNode content then StoreKind.ofName? name else none
  | _ => none

/-- Reads `[cache]`. -/
def CacheLayer.ofNode? (node : Node) : Option CacheLayer := do
  guard (isSection node)
  return {
    maxSize := ← readField? natural? (fieldNode? "max_size" 0 node)
    idleTimeout := ← readField? natural? (fieldNode? "idle_timeout_ms" 1 node)
    blockOnFull := ← readField? boolean? (fieldNode? "block_on_full" 2 node)
    blockTimeout := ← readField? natural? (fieldNode? "block_timeout_ms" 3 node)
    sweepInterval := ← readField? natural? (fieldNode? "sweep_interval_ms" 4 node)
    removalTimeout := ← readField? natural? (fieldNode? "removal_timeout_ms" 5 node) }

/-- Reads `[store]`. -/
def StoreLayer.ofNode? (node : Node) : Option StoreLayer := do
  guard (isSection node)
  return {
    backend := ← readField? storeKind? (fieldNode? "backend" 0 node)
    path := ← readField? text? (fieldNode? "path" 1 node) }

/-- Reads `[logging]`. -/
def LoggingLayer.ofNode? (node : Node) : Option LoggingLayer := do
  guard (isSection node)
  return {
    level := ← readField? text? (fieldNode? "level" 0 node)
    file := ← readField? text? (fieldNode? "file" 1 node) }

/-- Reads a TOML document as a layer. -/
def Layer.ofToml? (text : String) : Option Layer := do
  let entries ← Document.read? text
  return {
    cache := ← readField? CacheLayer.ofNode? (entries.lookup "cache")
    store := ← readField? StoreLayer.ofNode? (entries.lookup "store")
    logging := ← readField? LoggingLayer.ofNode? (entries.lookup "logging") }

/-! ## Writing -/

/-- A field with its value, if it is set. -/
def writtenField {α : Type} (name : String) (scalar : α → Written.Scalar) (value : Option α) :
    List (String × Written.Scalar) :=
  (value.map fun a => (name, scalar a)).toList

/-- The fields of `[cache]` that are set. -/
def CacheLayer.fields (layer : CacheLayer) : List (String × Written.Scalar) :=
  writtenField "max_size" .natural layer.maxSize ++
    writtenField "idle_timeout_ms" .natural layer.idleTimeout ++
    writtenField "block_on_full" .boolean layer.blockOnFull ++
    writtenField "block_timeout_ms" .natural layer.blockTimeout ++
    writtenField "sweep_interval_ms" .natural layer.sweepInterval ++
    writtenField "removal_timeout_ms" .natural layer.removalTimeout

/-- The fields of `[store]` that are set. -/
def StoreLayer.fields (layer : StoreLayer) : List (String × Written.Scalar) :=
  writtenField "backend" (fun kind => .text kind.name) layer.backend ++
    writtenField "path" .text layer.path

/-- The fields of `[logging]` that are set. -/
def LoggingLayer.fields (layer : LoggingLayer) : List (String × Written.Scalar) :=
  writtenField "level" .text layer.level ++ writtenField "file" .text layer.file

/-- The sections that are set, with their fields. -/
def Layer.sections (layer : Layer) : List (String × List (String × Written.Scalar)) :=
  (layer.cache.map fun s => ("cache", s.fields)).toList ++
    (layer.store.map fun s => ("store", s.fields)).toList ++
    (layer.logging.map fun s => ("logging", s.fields)).toList

/-- A layer as a TOML document. -/
def Layer.toToml (layer : Layer) : String :=
  String.ofList (Written.sectionsChars layer.sections)

end SessionCache
