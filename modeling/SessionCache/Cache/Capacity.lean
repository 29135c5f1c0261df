import SessionCache.Cache.Passivation

/-!
# Room

Before a session can be in memory, an operation has to get a unit of room for it. If none is left,
the least recently used ready session is passivated. If there is no such session, the operation
waits where the settings say so: in slices of 25 ms at most, looking again whenever it wakes, up to
its deadline.

* `Op.look` is one look, `Op.acquire` is the loop, `Op.reserve` starts it.
-/

namespace SessionCache

variable {σ ι ω : Type}

/-- Until when `Op.acquire` waits for a unit of room. -/
inductive Deadline where
  /-- `blockOnFull` is off: it does not wait. -/
  | never
  /-- The time `now + blockTimeout`. -/
  | until (t : Instant)
  /-- `now + blockTimeout` is later than the clock can say. -/
  | unbounded
  deriving DecidableEq

namespace Deadline

/-- The deadline of an operation that starts at `now`. -/
def ofSettings (settings : Settings) (now : Instant) : Deadline :=
  if settings.blockOnFull then
    match now.after? settings.blockTimeout with
    | some t => .until t
    | none => .unbounded
  else .never

/-- 25 ms, the longest time from one look to the next. -/
def slice : Duration := .ofMillis 25

/-- How long to wait for the next look: `slice`, but not past the deadline. -/
def nextSlice (deadline : Deadline) (now : Instant) : Duration :=
  match deadline with
  | .until t => (t.since now).min slice
  | _ => slice

end Deadline

/-- What `Op.look` finds. -/
inductive Look where
  /-- `Cache.occupied` was below `maxSize`, and now counts a unit more, for the operation. -/
  | taken
  /-- A victim was passivated: it is worth another look at once. -/
  | made
  /-- No unit and no victim: others have to do something first. The next look is due after `d`. -/
  | later (d : Duration)
  deriving DecidableEq

namespace Op

/-- Adds one to `Cache.occupied`. -/
def takeUnit : Op σ ω Unit := modifyCache fun c => { c with occupied := c.occupied + 1 }

/-- Takes one off `Cache.occupied`, for a unit that no slot holds, and signals. -/
def giveBack : Op σ ω Unit := do
  modifyCache fun c => { c with occupied := c.occupied - 1 }
  signal

/-- The error of an operation whose victim could not be passivated: `.lifecycle` is passed on as it
is, any other cause becomes `.evictionFailed victim cause`. -/
def evictionError (victim : Key) : CacheError → CacheError
  | .lifecycle key phase message => .lifecycle key phase message
  | cause => .evictionFailed victim cause

/-- Looks for a unit of room once: takes one if `occupied < maxSize`, else passivates `victim?`,
else waits or fails as `deadline` says. -/
def look (s : Surroundings σ ι ω) (deadline : Deadline) : Op σ ω Look := do
  let c ← cache
  if c.occupied < s.settings.maxSize then
    takeUnit
    return .taken
  else
    match c.victim? with
    | some victim =>
      match ← attempt (passivate s victim) with
      | .ok () => return .made
      | .error cause => throw (evictionError victim cause)
    | none =>
      let t ← now
      match deadline with
      | .never => throw (.allInUse s.settings.maxSize)
      | .until limit =>
        if limit ≤ t then throw (.waitedInVain s.settings.blockTimeout.millis)
        else return .later (deadline.nextSlice t)
      | .unbounded => return .later (deadline.nextSlice t)

/-- Calls `look` until a unit is `taken`, and waits where `look` says `.later`; `.stalled` after the
given number of looks. -/
def acquire (s : Surroundings σ ι ω) (deadline : Deadline) : Nat → Op σ ω Unit
  | 0 => throw .stalled
  | looks + 1 => do
    match ← look s deadline with
    | .taken => pure ()
    | .made => acquire s deadline looks
    | .later d =>
      ExceptT.lift (s.wait d)
      acquire s deadline looks

/-- Gets a unit of room: `acquire` with the deadline of the settings. -/
def reserve (s : Surroundings σ ι ω) : Op σ ω Unit := do
  acquire s (.ofSettings s.settings (← now)) s.patience

end Op

end SessionCache
