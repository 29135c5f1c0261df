import SessionCache.Cache.Callbacks

/-!
# Passivation

A ready session leaves memory for the store: its state is handed to the pre-passivate callbacks,
written to the store, and its slot is taken away; then the post-passivate callbacks run without
it. If it cannot be written it stays ready, after the post-activate callbacks have undone what the
first ones did. If a callback fails the session is lost for good.
-/

namespace SessionCache

variable {σ ι ω α : Type}

namespace Op

/-- Deletes the record of a session that is lost, and adds one to `Counters.removed` whether or not
the delete works. -/
def discardRecord (key : Key) : Op σ ω Unit := do
  let _ ← attempt (onStore (α := Bool) (Store.remove key))
  modifyCounters fun c => { c with removed := c.removed + 1 }

/-- Unlinks `key`, then `discardRecord`: the session is lost after a failed callback. -/
def forceRemove (key : Key) : Op σ ω Unit := do
  unlink key
  discardRecord key

/-- Fires `.postActivate` for a session that could not be written. If that works, the session is
`.ready` again and the answer is `failure`; if not, it is removed by `forceRemove`. -/
def takeBack (s : Surroundings σ ι ω) (key : Key) (state : σ) (failure : CacheError) :
    Op σ ω Unit := do
  modifyCounters fun c => { c with passivationFailures := c.passivationFailures + 1 }
  match ← attempt (s.lifecycle.fire .postActivate key (some state)) with
  | .error undoing =>
    forceRemove key
    throw undoing
  | .ok after =>
    let state := after.getD state
    modifyCache (·.update key fun slot => { slot with payload := some state, held := false })
    throw failure

/-- Fires `.postPassivate` without a state; if it fails, the record is deleted by
`discardRecord`. -/
def seeOff (s : Surroundings σ ι ω) (key : Key) : Op σ ω Unit := do
  match ← attempt (s.lifecycle.fire .postPassivate key none) with
  | .error failure =>
    discardRecord key
    throw failure
  | .ok _ => pure ()

/-- After the record was written: unlinks `key`, counts the passivation, and goes on with
`seeOff`. -/
def moveOut (s : Surroundings σ ι ω) (key : Key) : Op σ ω Unit := do
  unlink key
  modifyCounters fun c => { c with passivated := c.passivated + 1 }
  seeOff s key

/-- Moves a `.ready` session to the store: fires `.prePassivate`, writes the record by
`Store.passivate`, then `moveOut`, or `takeBack` if the write fails. -/
def passivate (s : Surroundings σ ι ω) (key : Key) : Op σ ω Unit := do
  match (← cache).slot? key with
  | none => throw .stalled
  | some slot =>
    let _ ← step slot.stage .evict
    match slot.payload with
    | none => throw (.illegalTransition slot.stage .evict)
    | some state =>
      modifyCache (·.update key fun slot => { slot with payload := none, held := true })
      match ← attempt (s.lifecycle.fire .prePassivate key (some state)) with
      | .error failure =>
        forceRemove key
        throw failure
      | .ok after =>
        let state := after.getD state
        match ← attempt (onStore (Store.passivate s.codec (← now) key state)) with
        | .error failure => takeBack s key state failure
        | .ok () => moveOut s key

end Op

end SessionCache
