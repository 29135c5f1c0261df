import SessionCache.Scenario.Perform

/-!
# Whole scenarios

The steps of a script run one after the other, with a pause before each.

* `run` performs a script; after each step there is an `Outcome`.
-/

namespace SessionCache.Scenario

/-- The limit on the depth of steps inside of steps. -/
def deepest : Nat := 128

/-- The time between two steps. -/
def pause : Duration := .ofMillis 1

/-- The `schedule` of a step that starts at `start`. -/
def scheduleOf (start : Instant) (during : List (Duration × Step)) : List Scheduled :=
  (during.map fun (delay, step) => { due := start.plus delay, step : Scheduled }).mergeSort
    fun a b => a.due ≤ b.due

/-- The slots and statistics of the current cache. -/
def shown (setup : Setup) : Play (Option (List Key × Stats)) := do
  match (← get).outside.current with
  | none => return none
  | some number => inCache number do
    let cache := (← get).cache
    return some (cache.keys, .ofCache setup.settings cache)

/-- Runs one step of a script. -/
def runLine (setup : Setup) (line : Line) : Play Outcome := do
  modifyOutside fun o => { o with log := [], ran := [], schedule := [] }
  advance (perform setup deepest) pause
  let start := (← get).now
  modifyOutside fun o => { o with
    started := start, schedule := scheduleOf start (line.during.getD []) }
  let answer ← perform setup deepest (.step line.step)
  let cache ← shown setup
  let listing ← onStore do return Store.listing (← get)
  let w ← get
  return {
    answer
    log := w.outside.log.reverse
    cache
    stored := listing.toOption.map fun metas => metas.map (·.key)
    now := w.now
    during := line.during.map fun _ => w.outside.ran.reverse }

/-- The world at the start. -/
def start (setup : Setup) (now : Instant) (withCache : Bool) : World Cart Outside where
  cache := setup.newCache
  store := { backend := setup.backend, precedes, containsByGet := setup.containsByGet }
  now := now
  outside := {
    started := now
    homes := [{ cache := setup.newCache, backend := 0 }]
    backends := [setup.backend]
    current := if withCache then some 0 else none }

/-- Runs a script. -/
def run (setup : Setup) (now : Instant) (withCache : Bool) (script : List Line) : List Outcome :=
  ((script.mapM (runLine setup)).run (start setup now withCache)).1

end SessionCache.Scenario
