import SessionCache.Config.StoreKind
import SessionCache.Session.Error

/-!
# What can be wrong with a configuration
-/

namespace SessionCache

/-- The failures of `Discovery.load` and `Layer.resolve`. -/
inductive ConfigError where
  /-- The file at `path` cannot be read. -/
  | unreadable (path : String) (cause : IoCause)
  /-- The file at `path` is no TOML document of a layer. -/
  | malformed
  | noRoom
  | noSweepInterval
  /-- `store.path` is not set, and `kind.needsPath`. -/
  | noStorePath (kind : StoreKind)
  | unknownBackend (name : String)
  deriving DecidableEq, Repr

namespace ConfigError

/-- The text about a value that `field` may not have. -/
def invalidValue (field reason : String) : String :=
  "invalid value for '" ++ field ++ "': " ++ reason

/-- The text of a `ConfigError`. -/
def message : ConfigError → String
  | .unreadable path cause => "failed to read config file '" ++ path ++ "': " ++ cause.message
  | .malformed => "failed to parse config"
  | .noRoom => invalidValue "cache.max_size" "must be at least 1"
  | .noSweepInterval => invalidValue "cache.sweep_interval_ms" "must be greater than zero"
  | .noStorePath kind =>
    "missing required field 'path' in [store] (backend = \"" ++ kind.name ++ "\")"
  | .unknownBackend name =>
    invalidValue "store.backend"
      ("unknown backend '" ++ name ++ "' (expected memory, file or sqlite)")

end ConfigError

/-- The `StoreKind` of a command line argument, in any case. -/
def StoreKind.parse (text : String) : Except ConfigError StoreKind :=
  match StoreKind.ofText? text with
  | some kind => .ok kind
  | none => .error (.unknownBackend (Text.lowered text))

end SessionCache
