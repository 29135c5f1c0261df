import SessionCache.Cache.Passivation

/-!
# Sweeping

* `Op.sweep` passivates the sessions that were idle for longer than the idle timeout, then deletes
  the records that are older than the removal timeout.
* `Op.passivateAll` passivates every ready session, the most recently used first.
* `Op.expirePassivated` deletes old records and counts them.

Neither of the first two stops at a session that cannot be passivated; they count it.
-/

namespace SessionCache

variable {σ ι ω : Type}

/-- What a sweep did, as numbers of sessions and records. -/
structure SweepReport where
  /-- The sessions that it looked at: the candidates of `Op.sweepIdle`, or all slots for
  `Op.passivateAll`. -/
  examined : Nat := 0
  passivated : Nat := 0
  failed : Nat := 0
  /-- The records that `Op.expirePassivated` deleted. -/
  expired : Nat := 0
  deriving DecidableEq, Repr

namespace Op

/-- Deletes the records written before `now - removalTimeout`, adds their number to
`Counters.expired`, and gives it back. -/
def expirePassivated (s : Surroundings σ ι ω) : Op σ ω Nat := do
  match s.settings.removalTimeout with
  | none => return 0
  | some timeout =>
    let purged ← onStore (Store.purgeOlderThan ((← now).before timeout))
    modifyCounters fun c => { c with expired := c.expired + purged.length }
    return purged.length

/-- Runs `passivate` and adds one to `passivated` or to `failed`; its error goes no further. -/
def passivateCounting (s : Surroundings σ ι ω) (key : Key) (report : SweepReport) :
    Op σ ω SweepReport := do
  match ← attempt (passivate s key) with
  | .ok () => return { report with passivated := report.passivated + 1 }
  | .error _ => return { report with failed := report.failed + 1 }

/-- Passivates, one after the other, those of the given keys whose slot is `.ready`, not `held`, and
has `now - lastAccess > timeout`. -/
def sweepKeys (s : Surroundings σ ι ω) (timeout : Duration) :
    List Key → SweepReport → Op σ ω SweepReport
  | [], report => return report
  | key :: rest, report => do
    let t ← now
    match (← cache).slot? key with
    | some slot =>
      if !slot.held && slot.stage = .ready && timeout < t.since slot.lastAccess then
        sweepKeys s timeout rest (← passivateCounting s key report)
      else sweepKeys s timeout rest report
    | none => sweepKeys s timeout rest report

/-- Runs `sweepKeys` over the keys of `Usage.sweep`; without an `idleTimeout` nothing happens. -/
def sweepIdle (s : Surroundings σ ι ω) : Op σ ω SweepReport := do
  match s.settings.idleTimeout with
  | none => return {}
  | some timeout =>
    let candidates := (← cache).usage.sweep (← now)
    sweepKeys s timeout candidates { examined := candidates.length }

/-- Runs `sweepIdle`, then `expirePassivated`; an error of the store leaves `expired` at 0. -/
def sweep (s : Surroundings σ ι ω) : Op σ ω SweepReport := do
  let report ← sweepIdle s
  match ← attempt (expirePassivated s) with
  | .ok count => return { report with expired := count }
  | .error _ => return report

/-- Passivates, one after the other, those of the given keys whose slot still has the `stay` given
with it, is `.ready` and not `held`. -/
def passivateStays (s : Surroundings σ ι ω) :
    List (Key × Nat) → SweepReport → Op σ ω SweepReport
  | [], report => return report
  | (key, stay) :: rest, report => do
    match (← cache).slot? key with
    | some slot =>
      if slot.stay = stay && !slot.held && slot.stage = .ready then
        passivateStays s rest (← passivateCounting s key report)
      else passivateStays s rest report
    | none => passivateStays s rest report

/-- Runs `passivateStays` over all slots as they are at the start. -/
def passivateAll (s : Surroundings σ ι ω) : Op σ ω SweepReport := do
  let stays := (← cache).slots.map fun (key, slot) => (key, slot.stay)
  passivateStays s stays { examined := stays.length }

end Op

end SessionCache
