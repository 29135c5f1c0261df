import SessionCache.Time.Instant

/-!
# Settings of a cache

How many sessions may be resident, how long they may stay idle, and whether an operation waits
for room. Settings are built from the defaults by changing one thing at a time.

* `Settings.withMaxSize_pos`: a cache built this way has room for at least one session.
-/

namespace SessionCache

/-- The settings of a cache. -/
structure Settings where
  /-- How many units of room there are: `Op.look` grants one while `Cache.occupied < maxSize`. -/
  maxSize : Nat := 1000
  /-- A session idle for longer than this is passivated by `Op.sweep`. -/
  idleTimeout : Option Duration := none
  /-- Whether `Op.reserve` waits for a unit of room when there is none, up to `blockTimeout`. -/
  blockOnFull : Bool := false
  /-- How long `Op.reserve` waits for a unit of room at most. -/
  blockTimeout : Duration := .ofSeconds 5
  /-- The time from one `Op.sweep` of the background thread to the next. -/
  sweepInterval : Duration := .ofSeconds 30
  /-- A record written longer ago than this is deleted by `Op.expirePassivated`. -/
  removalTimeout : Option Duration := none
  deriving DecidableEq, Repr

namespace Settings

/-- Sets `maxSize` to `n`, and to 1 if `n` is 0. -/
def withMaxSize (s : Settings) (n : Nat) : Settings := { s with maxSize := max n 1 }

/-- Sets `idleTimeout` to `d`. -/
def withIdleTimeout (s : Settings) (d : Duration) : Settings := { s with idleTimeout := some d }

/-- Clears `idleTimeout`: no session is overdue. -/
def withoutIdleTimeout (s : Settings) : Settings := { s with idleTimeout := none }

/-- Sets `blockOnFull`, and `blockTimeout` to `d`. -/
def withBlocking (s : Settings) (d : Duration) : Settings :=
  { s with blockOnFull := true, blockTimeout := d }

/-- Clears `blockOnFull`. -/
def failFast (s : Settings) : Settings := { s with blockOnFull := false }

/-- Sets `sweepInterval` to `d`. -/
def withSweepInterval (s : Settings) (d : Duration) : Settings := { s with sweepInterval := d }

/-- Sets `removalTimeout` to `d`. -/
def withRemovalTimeout (s : Settings) (d : Duration) : Settings :=
  { s with removalTimeout := some d }

theorem withMaxSize_pos (s : Settings) (n : Nat) : 0 < (s.withMaxSize n).maxSize := by
  simp only [withMaxSize]; omega

end Settings

end SessionCache
