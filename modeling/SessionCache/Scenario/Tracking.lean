import SessionCache.Cache.Usage
import SessionCache.Scenario.Script

/-!
# Scenarios for tracking use

A script of marks and questions for a `Usage` alone, with a clock that moves between the steps.
-/

namespace SessionCache.Scenario

/-- A step on a `Usage`. Questions are for a given time, or for now. -/
inductive TrackStep where
  | markInUse (key : KeyRef)
  | markIdle (key : KeyRef)
  | forget (key : KeyRef)
  | isInUse (key : KeyRef)
  | isExpired (key : KeyRef) (at? : Option Instant)
  | sweep (at? : Option Instant)
  | idleTimeout
  | advance (d : Duration)
  | unknown (name : String)

/-- The key of a step in a script without made keys. -/
def KeyRef.key? : KeyRef → Except Answer Key
  | .known key => .ok key
  | .made _ => .error (.skipped "unallocated key")
  | .malformed => .error .invalidKey
  | .missing => .error (.skipped "no key")

/-- The `Usage` after a change for a key. -/
def markWith (u : Usage) (ref : KeyRef) (change : Key → Usage) : Answer × Usage :=
  match ref.key? with
  | .ok key => (.done, change key)
  | .error answer => (answer, u)

/-- The answer to a question about a key. -/
def askWith (u : Usage) (ref : KeyRef) (question : Key → Bool) : Answer × Usage :=
  match ref.key? with
  | .ok key => (.flag (question key), u)
  | .error answer => (answer, u)

/-- Runs a step at `now`. -/
def track (u : Usage) (now : Instant) : TrackStep → Answer × Usage
  | .markInUse ref => markWith u ref (u.markInUse now)
  | .markIdle ref => markWith u ref (u.markIdle now)
  | .forget ref => markWith u ref u.forget
  | .isInUse ref => askWith u ref u.isInUse
  | .isExpired ref at? => askWith u ref fun key => u.isExpired key (at?.getD now)
  | .sweep at? => (.keys (u.sweep (at?.getD now)), u)
  | .idleTimeout => (.limit u.idleTimeout, u)
  | .advance _ => (.done, u)
  | .unknown name => (.skipped ("unknown step " ++ name), u)

/-- Runs a script: the answers, each with the `Usage` after it. -/
def trackAll (u : Usage) (now : Instant) : List TrackStep → List (Answer × Usage)
  | [] => []
  | step :: rest =>
    let now := now.plus pause
    let (answer, u) := track u now step
    let now := match step with
      | .advance d => now.plus d
      | _ => now
    (answer, u) :: trackAll u now rest

end SessionCache.Scenario
