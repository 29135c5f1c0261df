import SessionCache.Cache.Activation

/-!
# Making sessions and working with them

* `Op.create` makes a session; `Op.introduce` is what comes after the search for room.
* `Op.get` checks a session out: its state goes to the caller, and until the caller is done nobody
  else gets it. A session that is not in memory is activated first.
* `Op.finish` gives the state back. A removal asked for meanwhile is done now.
* `Op.remove` removes a session for good, wherever it is; one that is checked out is removed when
  it is finished.
-/

namespace SessionCache

variable {σ ι ω : Type}

namespace Op

/-- Makes the state of a new session by `Lifecycle.instantiate`, and fires `.postConstruct`. -/
def construct (s : Surroundings σ ι ω) (key : Key) (args : ι) : Op σ ω σ := do
  let state ← s.lifecycle.instantiate key args
  return (← s.lifecycle.fire .postConstruct key (some state)).getD state

/-- Makes a session under a fresh key; the operation has the unit of room for it, which is given
back if `construct` fails. -/
def introduce (s : Surroundings σ ι ω) (args : ι) : Op σ ω Key := do
  let key ← ExceptT.lift s.freshKey
  match ← attempt (do return (← step .new .create, ← construct s key args)) with
  | .error failure =>
    giveBack
    throw failure
  | .ok (next, state) =>
    let t ← now
    let since ← lock s
    link key { stage := next, payload := some state, lastAccess := t, reserved := true }
    modifyUsage (·.markIdle since key)
    signal
    modifyCounters fun c => { c with created := c.created + 1 }
    return key

/-- Makes a session: `reserve`, then `introduce`. -/
def create (s : Surroundings σ ι ω) (args : ι) : Op σ ω Key := do
  reserve s
  introduce s args

/-- Hands out the state of a `.ready` session: its slot becomes `.inUse` with no `payload`, and the
tracker marks it in use. -/
def checkOut (s : Surroundings σ ι ω) (key : Key) : Op σ ω σ := do
  match (← cache).slot? key with
  | none => throw .stalled
  | some slot =>
    let next ← step slot.stage .get
    match slot.payload with
    | none => throw (.illegalTransition slot.stage .get)
    | some state =>
      modifyCache (·.update key fun slot => { slot with payload := none, held := true })
      match ← attempt (s.lifecycle.fire .preInvoke key (some state)) with
      | .error failure =>
        forceRemove key
        throw failure
      | .ok after =>
        let t ← now
        modifyCache (·.update key fun slot =>
          { slot with stage := next, lastAccess := t, held := false })
        let since ← lock s
        modifyUsage (·.markInUse since key)
        return after.getD state

/-- Looks at the slot of `key`: `checkOut` if it is `.ready`, `activate` first if there is none,
`.inUse key` if it is checked out. Another look is taken at most the given number of times. -/
def getLooking (s : Surroundings σ ι ω) (key : Key) : Nat → Op σ ω σ
  | 0 => throw .stalled
  | looks + 1 => do
    modifyCache (·.promote key)
    match (← cache).slot? key with
    | none =>
      activate s key
      checkOut s key
    | some slot =>
      if slot.held then throw .stalled
      else
        match slot.stage with
        | .ready => checkOut s key
        | .inUse => throw (.inUse key)
        | .removed => throw (.notFound key)
        | .passivated | .new => getLooking s key looks

/-- Checks `key` out: `getLooking` with `s.patience` looks. -/
def get (s : Surroundings σ ι ω) (key : Key) : Op σ ω σ := getLooking s key s.patience

/-- Fires `.preDestroy` and unlinks `key`, whether or not the callback fails; counts the session as
removed. -/
def destroy (s : Surroundings σ ι ω) (key : Key) (state : Option σ) : Op σ ω Unit := do
  let hook ← attempt (s.lifecycle.fire .preDestroy key state)
  unlink key
  modifyCounters fun c => { c with removed := c.removed + 1 }
  match hook with
  | .error failure => throw failure
  | .ok _ => pure ()

/-- Makes a session that comes back `.ready`, with `state` as its `payload`; the tracker marks it
idle at a later reading of the clock than `Slot.lastAccess`. -/
def regain (s : Surroundings σ ι ω) (key : Key) (state : σ) (next : Stage) : Op σ ω Unit := do
  match ← attempt (s.lifecycle.fire .postInvoke key (some state)) with
  | .error failure =>
    forceRemove key
    throw failure
  | .ok after =>
    let t ← now
    modifyCache (·.update key fun slot =>
      { slot with payload := some (after.getD state), stage := next, lastAccess := t,
                  held := false })
    let since ← lock s
    modifyCache (·.promote key)
    modifyUsage (·.markIdle since key)
    signal

/-- Gives the state of a checked-out session back: `regain`, or `destroy` where `removePending` is
set. -/
def finish (s : Surroundings σ ι ω) (key : Key) (state : σ) : Op σ ω Unit := do
  match (← cache).slot? key with
  | none => throw (.illegalTransition .removed .finish)
  | some slot =>
    if slot.held then throw .stalled
    else
      let next ← step slot.stage .finish
      modifyCache (·.update key fun slot => { slot with held := true })
      if slot.removePending then destroy s key (some state)
      else regain s key state next

/-- Sets `removePending` for a checked-out session. -/
def removeOnFinish (key : Key) : Op σ ω Unit :=
  modifyCache (·.update key fun slot => { slot with removePending := true })

/-- Removes the record of a `key` that has no slot: under a placeholder, reads it, fires
`.preDestroy`, and deletes it. -/
def removePassivated (s : Surroundings σ ι ω) (key : Key) : Op σ ω Unit := do
  linkPlaceholder key
  match ← attempt (onStore (Store.activate s.codec key)) with
  | .ok state =>
    let hook ← attempt (s.lifecycle.fire .preDestroy key (some state))
    match ← attempt (onStore (α := Bool) (Store.remove key)) with
    | .error failure => abandon key failure
    | .ok _ =>
      unlink key
      modifyCounters fun c => { c with removed := c.removed + 1 }
      match hook with
      | .error failure => throw failure
      | .ok _ => pure ()
  | .error (.notFound _) => unlink key
  | .error (.deserialization _ _) =>
    unlink key
    modifyCounters fun c => { c with removed := c.removed + 1 }
  | .error failure => abandon key failure

/-- Looks at the slot of `key`: `destroy` if it is `.ready`, `removePassivated` if there is none,
`removeOnFinish` if it is checked out. Another look is taken at most the given number of times. -/
def removeLooking (s : Surroundings σ ι ω) (key : Key) : Nat → Op σ ω Unit
  | 0 => throw .stalled
  | looks + 1 => do
    match (← cache).slot? key with
    | none => removePassivated s key
    | some slot =>
      if slot.held then throw .stalled
      else
        match slot.stage with
        | .ready =>
          let _ ← step slot.stage .remove
          modifyCache (·.update key fun slot => { slot with payload := none, held := true })
          destroy s key slot.payload
        | .inUse => removeOnFinish key
        | .removed => pure ()
        | .passivated | .new => removeLooking s key looks

/-- Removes `key`: `removeLooking` with `s.patience` looks. A key with neither a slot nor a record
is no error. -/
def remove (s : Surroundings σ ι ω) (key : Key) : Op σ ω Unit := removeLooking s key s.patience

end Op

end SessionCache
