import SessionCache.Cache.Checkout
import SessionCache.Scenario.Passing
import SessionCache.Scenario.Stored

/-!
# Performing the steps of a scenario

Most steps are operations of the cache, with callbacks that log themselves and obey rules. Steps
inside of steps are performed by the same rules, up to a depth.

* `perform` performs a step.
-/

namespace SessionCache.Scenario

/-- Makes the next key. -/
def freshKey : Play Key := do
  let n := (← get).outside.made
  modifyOutside fun o => { o with made := n + 1 }
  return madeKey n

/-- The surroundings of the operations; `nested` runs steps inside of them. -/
def surroundings (setup : Setup) (nested : Job → Play Answer) :
    Surroundings Cart Cart Outside where
  settings := setup.settings
  codec := Cart.codec
  lifecycle := {
    bean := bean nested setup.marks
    interceptors := setup.interceptors.map (interceptor nested setup.marks) }
  freshKey := freshKey
  wait := wait nested
  patience := patience

/-- The answer of an operation. -/
def operation {α : Type} (encode : α → Answer) (op : Op Cart Outside α) : Play Answer := do
  match ← op.run with
  | .ok a => return encode a
  | .error e => return .failed e

/-- Runs `action` with the number of the current cache, if there is one. -/
def withCurrent (action : Nat → Play Answer) : Play Answer := do
  match (← get).outside.current with
  | some number => action number
  | none => return .skipped "no cache"

/-- Runs `action` in the current cache, if there is one. -/
def withCache (action : Play Answer) : Play Answer := withCurrent fun number => inCache number action

/-- Runs `action` with a checked-out session, in its cache. -/
def withHandle (ref : KeyRef) (action : Key → Handle → Play Answer) : Play Answer :=
  withCurrent fun _ => withKey ref fun key => do
    match (← get).outside.handles.lookup key with
    | some handle => inCache handle.cache (action key handle)
    | none => return .skipped "not checked out"

/-- Removes a session from `handles`. -/
def dropHandle (key : Key) : Play Unit :=
  modifyOutside fun o => { o with handles := o.handles.filter (·.1 ≠ key) }

/-- Adds a session to `handles`. -/
def putHandle (key : Key) (handle : Handle) : Play Unit :=
  modifyOutside fun o => { o with handles := (key, handle) :: o.handles.filter (·.1 ≠ key) }

/-- `Op.finish` of a session, whatever it answers. -/
def letGo (s : Surroundings Cart Cart Outside) (key : Key) (handle : Handle) : Play Unit :=
  inCache handle.cache do
    let _ ← (Op.finish s key handle.cart).run

/-- The handle with the least key. -/
def firstHandle? : List (Key × Handle) → Option (Key × Handle)
  | [] => none
  | entry :: rest =>
    match firstHandle? rest with
    | some other => if precedes other.1 entry.1 then some other else some entry
    | none => some entry

/-- `letGo` of every handle in the order of keys, also of those that callbacks add meanwhile, this
many at most. -/
def letAllGo (s : Surroundings Cart Cart Outside) : Nat → Play Unit
  | 0 => pure ()
  | most + 1 => do
    match firstHandle? (← get).outside.handles with
    | none => pure ()
    | some (key, handle) =>
      dropHandle key
      letGo s key handle
      letAllGo s most

/-- Runs a step; `nested` runs the steps inside of it. -/
def performStep (setup : Setup) (nested : Job → Play Answer) (step : Step) : Play Answer :=
  let s := surroundings setup nested
  match step with
  | .store step => performStore setup step
  | .advance d => do
    advance nested d
    return .done
  | .rule point concerns skip times failure run => do
    modifyOutside fun o =>
      { o with rules := o.rules ++ [{ point, concerns, skip, times, failure, run }] }
    return .done
  | .clearRules => do
    modifyOutside fun o => { o with rules := [] }
    return .done
  | .startSweeper => withCurrent fun number => do
    let w ← get
    if w.outside.sweeper.isSome then return .skipped "sweeper exists"
    modifyOutside fun o =>
      { o with sweeper := some (.start setup.settings.sweepInterval w.now, number) }
    return .done
  | .stopSweeper => do
    modifyOutside fun o => { o with sweeper := none }
    return .done
  | .sweeperRunning =>
    return .flag ((← get).outside.sweeper.any fun (sweeper, _) => sweeper.isRunning)
  | .restart => withCurrent fun _ => do
    letAllGo s patience
    addCache setup.newCache
    return .done
  | .dropCache => withCurrent fun _ => do
    letAllGo s patience
    modifyOutside fun o => { o with current := none }
    return .done
  | .create cart => withCache do operation .created (Op.create s cart)
  | .get ref => withCurrent fun cache => withKey ref fun key => do
    match ← inCache cache (Op.get s key).run with
    | .ok cart =>
      let old := (← get).outside.handles.lookup key
      putHandle key { cache, cart }
      if let some handle := old then letGo s key handle
      return .checkedOut key cart
    | .error e => return .failed e
  | .mutate ref edit => withHandle ref fun key handle => do
    let cart := edit.apply handle.cart
    putHandle key { handle with cart }
    return .state cart
  | .finish ref => withHandle ref fun key handle => do
    dropHandle key
    operation (fun _ => .done) (Op.finish s key handle.cart)
  | .letGo ref => withHandle ref fun key handle => do
    dropHandle key
    letGo s key handle
    return .done
  | .removeOnFinish ref => withHandle ref fun key _ => do
    operation (fun _ => .done) (Op.removeOnFinish key)
  | .peek ref => withCache do withKey ref fun key => operation .entry (Op.peek s key)
  | .contains ref => withCache do withKey ref fun key => operation .flag (Op.contains key)
  | .remove ref => withCache do withKey ref fun key => do
    operation (fun _ => .done) (Op.remove s key)
  | .keys => withCache do return .keys (← get).cache.keys
  | .size => withCache do return .size (← get).cache.occupied
  | .sweep => withCache do operation .report (Op.sweep s)
  | .passivateAll => withCache do operation .report (Op.passivateAll s)
  | .expirePassivated => withCache do operation .count (Op.expirePassivated s)
  | .stats => withCache do return .stats (.ofCache setup.settings (← get).cache)
  | .settings => withCache do
    return .settings setup.settings.maxSize setup.settings.blockOnFull
  | .unknown name => return .skipped ("unknown step " ++ name)

/-- Runs a job; `nested` runs the jobs inside of it. -/
def performWith (setup : Setup) (nested : Job → Play Answer) : Job → Play Answer
  | .step step => performStep setup nested step
  | .sweep cache => inCache cache do operation .report (Op.sweep (surroundings setup nested))

/-- Runs a job, with jobs inside of jobs up to a depth. -/
def perform (setup : Setup) : Nat → Job → Play Answer
  | 0, _ => return .skipped "too deep"
  | depth + 1, job => performWith setup (perform setup depth) job

end SessionCache.Scenario
