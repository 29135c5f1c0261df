import SessionCache.Config.Layer
import SessionCache.Json.Value

/-!
# Layers as JSON

A layer is an object of its sections, a section an object of its fields, each only if it is set.
-/

namespace SessionCache

open Json

/-- A field with its value, if it is set. -/
def setField {α : Type} (name : String) (encode : α → Value) (value : Option α) :
    List (String × Value) :=
  (value.map fun a => (name, encode a)).toList

/-- `[cache]` as JSON. -/
def CacheLayer.toValue (layer : CacheLayer) : Value :=
  .object (setField "max_size" .nat layer.maxSize ++
    setField "idle_timeout_ms" .nat layer.idleTimeout ++
    setField "block_on_full" .bool layer.blockOnFull ++
    setField "block_timeout_ms" .nat layer.blockTimeout ++
    setField "sweep_interval_ms" .nat layer.sweepInterval ++
    setField "removal_timeout_ms" .nat layer.removalTimeout)

/-- `[store]` as JSON. -/
def StoreLayer.toValue (layer : StoreLayer) : Value :=
  .object (setField "backend" (fun kind => .string kind.name) layer.backend ++
    setField "path" .string layer.path)

/-- `[logging]` as JSON. -/
def LoggingLayer.toValue (layer : LoggingLayer) : Value :=
  .object (setField "level" .string layer.level ++ setField "file" .string layer.file)

/-- A layer as JSON, without the sections that are not set. -/
def Layer.toValue (layer : Layer) : Value :=
  .object (setField "cache" CacheLayer.toValue layer.cache ++
    setField "store" StoreLayer.toValue layer.store ++
    setField "logging" LoggingLayer.toValue layer.logging)

end SessionCache
