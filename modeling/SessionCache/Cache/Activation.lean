import SessionCache.Cache.Capacity

/-!
# Activation

A passivated session comes back into memory: a slot without a state stands in for it, so that
nobody else works on the key; then room is made, and the record is read between the pre-activate
and the post-activate callbacks, and deleted. If that fails the slot goes away again. After a
failure of the store the record is still there for another try; a failed callback deletes it.

* `Op.announce` is what comes before the search for room, and `Op.settle` what comes after it.
-/

namespace SessionCache

variable {σ ι ω : Type}

namespace Op

/-- Waits for the lock on the slots and the tracker, and gives back the time `s.lockedAt`. The times
in `Usage` are read under the lock, so they are not earlier than those in the slots. -/
def lock (s : Surroundings σ ι ω) : Op σ ω Instant := do
  modifyThe (World σ ω) fun w => { w with now := s.lockedAt w }
  now

/-- Links a placeholder for `key`: a slot that is `.passivated` and `held`, with no `payload` and no
unit of room. -/
def linkPlaceholder (key : Key) : Op σ ω Unit := do
  link key { stage := .passivated, payload := none, lastAccess := ← now, held := true }

/-- Unlinks the placeholder of `key` and fails with `failure`. -/
def abandon {α : Type} (key : Key) (failure : CacheError) : Op σ ω α := do
  unlink key
  throw failure

/-- Fires `.postActivate` for the state that was read, then deletes the record of `key`. A failed
callback loses the session; a failed delete is the error of the operation, and keeps the record. -/
def welcome (s : Surroundings σ ι ω) (key : Key) (state : σ) : Op σ ω σ := do
  match ← attempt (s.lifecycle.fire .postActivate key (some state)) with
  | .error failure =>
    discardRecord key
    throw failure
  | .ok after =>
    let _ ← onStore (α := Bool) (Store.remove key)
    return after.getD state

/-- Fires `.preActivate`, reads and decodes the record of `key`, and goes on with `welcome`. A
failed callback loses the session. -/
def load (s : Surroundings σ ι ω) (key : Key) : Op σ ω σ := do
  match ← attempt (s.lifecycle.fire .preActivate key none) with
  | .error failure =>
    discardRecord key
    throw failure
  | .ok _ => welcome s key (← onStore (Store.activate s.codec key))

/-- Links a placeholder for `key`, and unlinks it again with `.notFound key` if `Store.holds` finds
no record. -/
def announce (key : Key) : Op σ ω Unit := do
  linkPlaceholder key
  match ← attempt (onStore (Store.holds key)) with
  | .error failure => abandon key failure
  | .ok false => abandon key (.notFound key)
  | .ok true => pure ()

/-- Loads the state of `key` into its placeholder, which becomes `.ready` and `reserved` and stays
`held`; the unit of room is the operation's. If `load` fails, the unit is given back and the
placeholder unlinked. -/
def settle (s : Surroundings σ ι ω) (key : Key) : Op σ ω Unit := do
  let next ← step .passivated .activate
  modifyCache (·.update key fun slot => { slot with reserved := true })
  match ← attempt (load s key) with
  | .error failure =>
    match failure with
    | .deserialization _ _ => modifyCounters fun c => { c with removed := c.removed + 1 }
    | _ => pure ()
    abandon key failure
  | .ok state =>
    let t ← now
    modifyCache (·.update key fun slot =>
      { slot with payload := some state, stage := next, lastAccess := t })
    let since ← lock s
    modifyUsage (·.markIdle since key)
    modifyCounters fun c => { c with activated := c.activated + 1 }

/-- Activates `key`: `announce`, then `reserve`, then `settle`. -/
def activate (s : Surroundings σ ι ω) (key : Key) : Op σ ω Unit := do
  announce key
  match ← attempt (reserve s) with
  | .error failure => abandon key failure
  | .ok () => settle s key

end Op

end SessionCache
