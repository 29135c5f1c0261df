import SessionCache.Cache.Checkout
import SessionCache.Cache.Inspection
import SessionCache.Cache.Sweeping
import SessionCache.Config.Layer
import SessionCache.Simulation.Basket

/-!
# The workload of a simulation

Sessions are created; then each worker makes its calls, one worker after the other. A call checks
a session out (`Op.get`), puts something into the basket and gives it back (`Op.finish`); some calls
end with `Op.remove`. Which session a call is about, and what it does there, is a `Choice`.

* `Plan`: how many sessions, workers and calls there are; `Plan.overrides`: what of the configuration
  of the cache a plan sets.
* `Workload.run`: the whole workload, for any choices.
-/

namespace SessionCache

/-! ## Plans -/

/-- The flags of `simulate`. -/
structure Plan where
  sessions : Nat := 100
  workers : Nat := 8
  /-- `--calls`, of each worker. -/
  calls : Nat := 1000
  /-- `--remove-percent`: of a hundred calls, how many end with a removal. -/
  removePercent : Nat := 1
  /-- `--seed`. -/
  seed : Option Nat := none
  maxSize : Option Nat := none
  /-- `--idle-timeout-ms`. -/
  idleTimeout : Option Nat := none
  /-- `--block-timeout-ms`; operations then wait for room. -/
  blockTimeout : Option Nat := none
  /-- `--drain`: `Op.passivateAll` at the end. -/
  drain : Bool := false
  deriving DecidableEq, Repr

/-- The layer of a plan. -/
def Plan.overrides (plan : Plan) : Layer where
  cache := some {
    maxSize := plan.maxSize
    idleTimeout := plan.idleTimeout
    blockOnFull := plan.blockTimeout.map fun _ => true
    blockTimeout := plan.blockTimeout }

/-! ## Calls -/

/-- What a call does, as it was drawn. -/
structure Choice where
  /-- The session, modulo the number of sessions. -/
  session : Nat
  item : LineItem
  /-- Below `removePercent`, the call ends with a removal. -/
  roll : Nat
  deriving DecidableEq, Repr

/-- The counts of a simulation. -/
structure Tally where
  completed : Nat := 0
  inUse : Nat := 0
  capacity : Nat := 0
  notFound : Nat := 0
  removed : Nat := 0
  failed : Nat := 0
  deriving DecidableEq, Repr

namespace Tally

/-- Counts a call whose `Op.get` failed. -/
def refuse (t : Tally) : CacheError → Tally
  | .inUse _ => { t with inUse := t.inUse + 1 }
  | .notFound _ => { t with notFound := t.notFound + 1 }
  | e =>
    if e.isCapacity then { t with capacity := t.capacity + 1 }
    else { t with failed := t.failed + 1 }

end Tally

namespace Workload

/-- The bean: a new basket for each customer, and `.postInvoke` counts the call. `World.outside` is
the number of keys made. -/
def bean : Bean Basket String Nat where
  instantiate _ customer := pure (.ok { customer })
  callback phase _ basket :=
    pure (if phase = .postInvoke then basket.map Basket.countCall else basket, none)

/-- More looks than `Op.acquire` needs. -/
def patience : Nat := twoTo 64

/-- The surroundings of a workload: keys in the order of `keys`, a clock that stands still but for
waits, and no one else. -/
def surroundings (settings : Settings) (keys : Nat → Key) : Surroundings Basket String Nat where
  settings := settings
  codec := Basket.codec
  lifecycle := { bean }
  freshKey := fun w => (keys w.outside, { w with outside := w.outside + 1 })
  wait d := fun w => ((), { w with now := w.now.plus d })
  patience := patience

variable (s : Surroundings Basket String Nat)

/-- The customer of session `n`. -/
def customer (n : Nat) : String := "customer-" ++ toString n

/-- `Op.create` for each customer. -/
def createSessions (count : Nat) : Op Basket Nat (List Key) :=
  (List.range count).mapM fun n => Op.create s (customer n)

/-- `Op.remove` after a call, with its count. -/
def removeAfter (key : Key) (tally : Tally) : Act Basket Nat Tally := do
  match ← (Op.remove s key).run with
  | .ok () => return { tally with removed := tally.removed + 1 }
  | .error _ => return { tally with failed := tally.failed + 1 }

/-- A call: `Op.get`, an item more, `Op.finish`, and perhaps `Op.remove`. -/
def call (removePercent : Nat) (key : Key) (choice : Choice) (tally : Tally) :
    Act Basket Nat Tally := do
  match ← (Op.get s key).run with
  | .error e => return tally.refuse e
  | .ok basket =>
    match ← (Op.finish s key (basket.add choice.item)).run with
    | .error _ => return { tally with failed := tally.failed + 1 }
    | .ok () =>
      let tally := { tally with completed := tally.completed + 1 }
      if choice.roll < removePercent then removeAfter s key tally else return tally

/-- The calls of `choices`, in order. -/
def callAll (removePercent : Nat) (keys : List Key) : List Choice → Tally → Act Basket Nat Tally
  | [], tally => return tally
  | choice :: rest, tally => do
    match keys[choice.session % keys.length]? with
    | none => callAll removePercent keys rest tally
    | some key => callAll removePercent keys rest (← call s removePercent key choice tally)

/-- The choices of all workers, one worker after the other. -/
def choices (plan : Plan) (choose : Nat → Nat → Choice) : List Choice :=
  (List.range plan.workers).flatMap fun worker => (List.range plan.calls).map (choose worker)

/-- All calls of the plan; none if there are no sessions. -/
def callChosen (plan : Plan) (choose : Nat → Nat → Choice) (keys : List Key) :
    Act Basket Nat Tally :=
  if keys.isEmpty then return {}
  else callAll s plan.removePercent keys (choices plan choose) {}

/-- The workload of `plan`: sessions, calls, and the drain. -/
def run (plan : Plan) (choose : Nat → Nat → Choice) : Op Basket Nat Tally := do
  let keys ← createSessions s plan.sessions
  let tally ← ExceptT.lift (callChosen s plan choose keys)
  if plan.drain then
    let _ ← Op.passivateAll s
  return tally

end Workload

end SessionCache
