import SessionCache.Config.StoreKind
import SessionCache.Json.Printer
import SessionCache.Simulation.Workload

/-!
# Summaries of simulations

* `Summary.toValue`: as JSON.
* `Summary.text`: for people. Counts of things that went wrong are shown only if there are any.
-/

namespace SessionCache

open Json

/-- `d` with one decimal in the largest unit of which it has at least one, rounded half to even. -/
def Duration.shortText (d : Duration) : String :=
  let (unit, name) : Nat × String :=
    if 1000000000 ≤ d.nanos then (1000000000, "s")
    else if 1000000 ≤ d.nanos then (1000000, "ms")
    else if 1000 ≤ d.nanos then (1000, "µs")
    else (1, "ns")
  let whole := d.nanos * 10 / unit
  let rest := d.nanos * 10 % unit
  let tenths := if unit < 2 * rest ∨ unit = 2 * rest ∧ whole % 2 = 1 then whole + 1 else whole
  toString (tenths / 10) ++ "." ++ toString (tenths % 10) ++ name

/-- `Stats` as JSON. -/
def Stats.toValue (stats : Stats) : Value :=
  let c := stats.counters
  .object [("resident", .number (.int stats.resident)), ("max_size", .nat stats.maxSize),
    ("available", .nat stats.available), ("in_use", .nat stats.inUse), ("created", .nat c.created),
    ("activated", .nat c.activated), ("passivated", .nat c.passivated), ("removed", .nat c.removed),
    ("expired", .nat c.expired), ("passivation_failures", .nat c.passivationFailures)]

/-- A `Tally` as JSON. -/
def Tally.toValue (t : Tally) : Value :=
  .object [("completed", .nat t.completed), ("in_use", .nat t.inUse), ("capacity", .nat t.capacity),
    ("not_found", .nat t.notFound), ("removed", .nat t.removed), ("failed", .nat t.failed)]

/-- The result of a simulation. -/
structure Summary where
  seed : Nat
  store : StoreKind
  tally : Tally
  stats : Stats

namespace Summary

/-- The output of `simulate --json`. -/
def toValue (s : Summary) (elapsed : Duration) : Value :=
  .object [("elapsed_ms", .nat elapsed.millis), ("seed", .nat s.seed),
    ("store", .string s.store.name), ("calls", s.tally.toValue), ("stats", s.stats.toValue)]

/-- The line under a heading. -/
def rule (width : Nat) : String := String.ofList (List.replicate width '─')

/-- The width of names. -/
def nameWidth : Nat := 14

/-- A name and its value. -/
def line (name value : String) : String :=
  let shown := name ++ ":"
  "  " ++ shown ++ String.ofList (List.replicate (nameWidth - shown.length) ' ') ++ value

/-- A line with a count that is not zero. -/
def lineIfAny (name : String) (count : Nat) : List String :=
  if 0 < count then [line name (toString count)] else []

/-- A heading and the lines under it. -/
def chapter (title : String) (body : List String) : List String :=
  [title, rule 50, ""] ++ body ++ [""]

/-- The output of `simulate`. -/
def text (s : Summary) (elapsed : Duration) (verbose : Bool) : List String :=
  let t := s.tally
  let c := s.stats.counters
  chapter "Simulation Complete"
      ([line "Elapsed" elapsed.shortText, line "Store" s.store.name] ++
        if verbose then [line "Seed" (toString s.seed)] else []) ++
    chapter "Calls"
      ([line "Completed" (toString t.completed), line "In use" (toString t.inUse),
        line "Not found" (toString t.notFound), line "Removed" (toString t.removed)] ++
        lineIfAny "Capacity" t.capacity ++ lineIfAny "Failed" t.failed) ++
    chapter "Cache Statistics"
      ([line "Resident" (toString s.stats.resident ++ " / " ++ toString s.stats.maxSize),
        line "Idle" (toString s.stats.available), line "In use" (toString s.stats.inUse),
        line "Created" (toString c.created), line "Activated" (toString c.activated),
        line "Passivated" (toString c.passivated), line "Removed" (toString c.removed)] ++
        lineIfAny "Pass. fails" c.passivationFailures)

end Summary

end SessionCache
