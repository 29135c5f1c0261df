import SessionCache.Config.Error
import SessionCache.Json.Printer
import SessionCache.Simulation.Summary

/-!
# How a command ends

With an `Output`, or with a `Failure`.

* `Output.render`: the text of an output. That of a `Summary` also tells how long the simulation
  took.
* `Failure.message`, `Failure.cause?`: the wording of a failure, and that of its cause.
-/

namespace SessionCache.Command

open Json

/-! ## Outputs -/

/-- The output of a command. -/
inductive Output where
  | text (content : String)
  | summary (s : Summary) (json verbose : Bool)

/-- Each line with a newline after it. -/
def unlines (lines : List String) : String := String.join (lines.map (· ++ "\n"))

/-- JSON over several lines, with sorted fields. -/
def document (value : Value) : String := unlines [value.canonical.pretty]

/-- `text` with blanks in front, up to `width`. -/
def padLeft (width : Nat) (text : String) : String :=
  String.ofList (List.replicate (width - text.length) ' ') ++ text

/-- The text of an output; `elapsed` is the time of the simulation. -/
def Output.render (elapsed : Duration) : Output → String
  | .text content => content
  | .summary s json verbose =>
    if json then document (s.toValue elapsed) else unlines (s.text elapsed verbose)

/-! ## Failures -/

/-- The failures of a command. -/
inductive Failure where
  | loading (cause : ConfigError)
  | configuration (cause : ConfigError)
  /-- The plan of a simulation does not go with the configuration. -/
  | cacheSettings (cause : ConfigError)
  | logLevel (level : String)
  | logDirectory (path : String) (cause : IoCause)
  | storeDirectory (path : String) (cause : StoreError)
  | storeDatabase (path : String) (cause : StoreError)
  | sessionKey (text : String)
  | listing (cause : CacheError)
  | removal (cause : CacheError)
  | purge (cause : CacheError)
  /-- `now - seconds` is out of the calendar. -/
  | age (seconds : Nat)
  | sessions (cause : CacheError)
  deriving DecidableEq

namespace Failure

/-- The text of a `Failure`. -/
def message : Failure → String
  | .loading _ => "failed to load configuration"
  | .configuration _ => "invalid configuration"
  | .cacheSettings _ => "invalid cache settings"
  | .logLevel level => "invalid log level '" ++ level ++ "'"
  | .logDirectory path _ => "failed to create log directory " ++ path
  | .storeDirectory path _ => "failed to open store directory " ++ path
  | .storeDatabase path _ => "failed to open store database " ++ path
  | .sessionKey _ => "invalid session key"
  | .listing _ => "failed to list records"
  | .removal _ => "failed to remove record"
  | .purge _ => "failed to purge records"
  | .age seconds => "--older-than-secs " ++ toString seconds ++ " is out of range"
  | .sessions _ => "failed to create sessions"

/-- The text of its cause, on a second line. -/
def cause? : Failure → Option String
  | .loading cause | .configuration cause | .cacheSettings cause => some cause.message
  | .logLevel _ => some "invalid filter directive"
  | .logDirectory _ cause => some cause.message
  | .storeDirectory _ cause | .storeDatabase _ cause => some cause.message
  | .sessionKey text => some ("no key: " ++ text)
  | .listing cause | .removal cause | .purge cause | .sessions cause => some cause.message
  | .age _ => none

end Failure

end SessionCache.Command
