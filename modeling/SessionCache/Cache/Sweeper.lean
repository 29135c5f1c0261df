import SessionCache.Time.Instant

/-!
# The background sweeper

A sweeper ticks again and again, with at least its interval between the end of one tick and the
next. In between it waits, and may be woken at any time; what it does then depends on the time
and on whether it was asked to stop.

* `Sweeper.wake` decides what a wake-up leads to.
* `Sweeper.wake_eq_tick_iff`: a tick needs a deadline that has come.
-/

namespace SessionCache

/-- The background thread between two ticks. -/
structure Sweeper where
  interval : Duration
  /-- The time of the next tick; `none` where `now + interval` is later than the clock can say. -/
  deadline : Option Instant
  /-- Whether `stop` was called. -/
  stopped : Bool := false
  /-- Whether the thread has ended: no tick comes any more. -/
  finished : Bool := false
  deriving DecidableEq, Repr

namespace Sweeper

/-- What the thread does when it wakes. -/
inductive Wake where
  /-- It waits again. -/
  | sleep
  /-- It calls `Op.sweep`. -/
  | tick
  /-- It leaves its loop. -/
  | quit
  deriving DecidableEq, Repr

/-- A thread that starts at `now`: the first tick is due `interval` later. -/
def start (interval : Duration) (now : Instant) : Sweeper where
  interval := interval
  deadline := now.after? interval

/-- Sets `stopped`. -/
def stop (s : Sweeper) : Sweeper := { s with stopped := true }

/-- Whether `deadline ≤ now`. -/
def isDue (s : Sweeper) (now : Instant) : Bool := s.deadline.any (· ≤ now)

/-- What the thread does when it wakes at `now`: `.quit` if it is `stopped` or `finished`, else
`.tick` if it `isDue`, else `.sleep`. -/
def wake (s : Sweeper) (now : Instant) : Wake :=
  if s.stopped || s.finished then .quit
  else if s.isDue now then .tick
  else .sleep

/-- After a tick that ended at `now`: the next one is due `interval` later if `goOn`, else the
thread is `finished`. -/
def ticked (s : Sweeper) (now : Instant) (goOn : Bool) : Sweeper :=
  if goOn then { s with deadline := now.after? s.interval } else { s with finished := true }

/-- The thread after it left its loop. -/
def quit (s : Sweeper) : Sweeper := { s with finished := true }

/-- Whether ticks may still come. -/
def isRunning (s : Sweeper) : Bool := !s.stopped && !s.finished

/-- The `deadline`, if a tick may still come. -/
def nextTick? (s : Sweeper) : Option Instant := if s.isRunning then s.deadline else none

theorem wake_eq_tick_iff {s : Sweeper} {now : Instant} :
    s.wake now = .tick ↔ s.isRunning = true ∧ ∃ t, s.deadline = some t ∧ t ≤ now := by
  unfold wake isRunning isDue
  cases hs : s.stopped <;> cases hf : s.finished <;> cases hd : s.deadline <;> simp

end Sweeper

end SessionCache
