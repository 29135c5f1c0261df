import SessionCache.Config.StoreKind
import SessionCache.Decimal.Double
import SessionCache.Simulation.Workload

/-!
# Switches

What may be set on a command line. A switch has a name, which follows two dashes, and perhaps a
letter, which follows one. Some switches take a value; what is accepted as their value is part of
`Switch.effect`.

* `natural?` and `count?` are the two kinds of numbers.
-/

namespace SessionCache.Command

/-! ## Values -/

/-- `n` followed by these decimal digits. -/
def digits? : Nat → List Char → Option Nat
  | acc, [] => some acc
  | acc, c :: rest => if c.isDigit then digits? (acc * 10 + (c.toNat - 48)) rest else none

/-- The number of at least one decimal digit. -/
def spelled? : List Char → Option Nat
  | [] => none
  | digits => digits? 0 digits

/-- `spelled?`, with an optional `+`. -/
def unsigned? : List Char → Option Nat
  | '+' :: digits => spelled? digits
  | digits => spelled? digits

/-- An unsigned 64-bit number. -/
def natural? (text : String) : Option Nat := (unsigned? text.toList).filter (· < twoTo 64)

/-- A number up to `most`; `-0` is one. -/
def count? (most : Nat) (text : String) : Option Nat :=
  match text.toList with
  | '-' :: digits => (spelled? digits).filter (· = 0)
  | digits => (unsigned? digits).filter (· ≤ most)

/-- A path, which must not be empty. -/
def path? (text : String) : Option String := if text.isEmpty then none else some text

/-- The limit on `--older-than`. -/
def mostSeconds : Nat := twoTo 63 - 1

/-! ## Settings -/

/-- The value of a flag. -/
inductive Setting where
  | verbose
  | json
  | config (path : String)
  | store (kind : StoreKind)
  | storePath (path : String)
  | sessions (n : Nat)
  | workers (n : Nat)
  | calls (n : Nat)
  | removePercent (n : Nat)
  | seed (n : Nat)
  | maxSize (n : Nat)
  | idleTimeout (ms : Nat)
  | blockTimeout (ms : Nat)
  | drain
  | olderThan (seconds : Nat)
  deriving DecidableEq, Repr

/-- The flags. -/
inductive Switch where
  | help
  | version
  | verbose
  | json
  | config
  | store
  | storePath
  | sessions
  | workers
  | calls
  | removePercent
  | seed
  | maxSize
  | idleTimeout
  | blockTimeout
  | drain
  | olderThan
  deriving DecidableEq, Repr

/-- How a flag is parsed. -/
inductive Effect where
  /-- `--help`. -/
  | help
  /-- `--version`. -/
  | version
  /-- A flag without a value. -/
  | flag (setting : Setting)
  /-- A flag with a value, which `read` parses. -/
  | value (read : String → Option Setting)

namespace Switch

/-- The name after `--`. -/
def name : Switch → String
  | .help => "help"
  | .version => "version"
  | .verbose => "verbose"
  | .json => "json"
  | .config => "config"
  | .store => "store"
  | .storePath => "store-path"
  | .sessions => "sessions"
  | .workers => "workers"
  | .calls => "calls"
  | .removePercent => "remove-percent"
  | .seed => "seed"
  | .maxSize => "max-size"
  | .idleTimeout => "idle-timeout-ms"
  | .blockTimeout => "block-timeout-ms"
  | .drain => "drain"
  | .olderThan => "older-than-secs"

/-- The letter after `-`, if there is one. -/
def letter? : Switch → Option Char
  | .help => some 'h'
  | .version => some 'V'
  | .verbose => some 'v'
  | .sessions => some 's'
  | .workers => some 'w'
  | .calls => some 'c'
  | _ => none

/-- How the flag is parsed. -/
def effect : Switch → Effect
  | .help => .help
  | .version => .version
  | .verbose => .flag .verbose
  | .json => .flag .json
  | .config => .value fun text => (path? text).map .config
  | .store => .value fun text => (StoreKind.ofText? text).map .store
  | .storePath => .value fun text => (path? text).map .storePath
  | .sessions => .value fun text => (natural? text).map .sessions
  | .workers => .value fun text => (natural? text).map .workers
  | .calls => .value fun text => (natural? text).map .calls
  | .removePercent => .value fun text => (count? 100 text).map .removePercent
  | .seed => .value fun text => (natural? text).map .seed
  | .maxSize => .value fun text => (natural? text).map .maxSize
  | .idleTimeout => .value fun text => (natural? text).map .idleTimeout
  | .blockTimeout => .value fun text => (natural? text).map .blockTimeout
  | .drain => .flag .drain
  | .olderThan => .value fun text => (count? mostSeconds text).map .olderThan

/-- The global flags. -/
def everywhere : List Switch := [.help, .version, .verbose, .json, .config, .store, .storePath]

/-- The flags of `simulate`. -/
def ofSimulation : List Switch :=
  [.sessions, .workers, .calls, .removePercent, .seed, .maxSize, .idleTimeout, .blockTimeout,
    .drain]

end Switch

end SessionCache.Command
