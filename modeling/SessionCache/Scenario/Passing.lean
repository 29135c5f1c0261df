import SessionCache.Scenario.Outside

/-!
# Passing time

While the clock moves, the sweeper ticks at its times, and while an operation waits for room, steps
that were put off run at theirs. At one time a tick comes first, then the end of the waiting, then
the steps. An operation that waits wakes as soon as anybody signals, unless it does so inside of
another operation that waits: then it sleeps to the end of its time.
-/

namespace SessionCache.Scenario

/-- Sets the clock to `t`. -/
def moveTo (t : Instant) : Play Unit := modify fun w => { w with now := w.now.max t }

/-- The deadline of the sweeper, unless it is in its tick. -/
def Outside.nextTick? (o : Outside) : Option Instant :=
  if o.ticking then none else o.sweeper.bind fun (sweeper, _) => sweeper.nextTick?

/-- A tick of the sweeper, which ends if its cache is not alive. -/
def tick (nested : Job → Play Answer) : Play Unit := do
  match (← get).outside.sweeper with
  | none => pure ()
  | some (_, cache) =>
    let alive := (← get).outside.isAlive cache
    modifyOutside fun o => { o with ticking := true }
    if alive then
      let _ ← nested (.sweep cache)
    let t := (← get).now
    modifyOutside fun o => { o with
      ticking := false
      sweeper := o.sweeper.map fun (sweeper, cache) => (sweeper.ticked t alive, cache) }

/-- Runs the next step of `schedule`. -/
def runScheduled (nested : Job → Play Answer) : Play Unit := do
  match (← get).outside.schedule with
  | [] => pure ()
  | next :: rest =>
    modifyOutside fun o => { o with schedule := rest }
    let w ← get
    let delay := w.now.since w.outside.started
    let answer ← nested (.step next.step)
    modifyOutside fun o => { o with ran := (delay, answer) :: o.ran }

/-- The next tick or step of `schedule` up to `limit`. -/
def nextEvent? (w : World Cart Outside) (scheduled : Bool) (limit : Instant)
    (nested : Job → Play Answer) : Option (Instant × Play Unit) :=
  let ticks := w.outside.nextTick?.filter (· ≤ limit)
  let steps := w.outside.schedule.head?.map (·.due) |>.filter fun due => scheduled && due < limit
  match ticks, steps with
  | none, none => none
  | some t, none => some (t, tick nested)
  | none, some s => some (s, runScheduled nested)
  | some t, some s => if t ≤ w.now.max s then some (t, tick nested) else some (s, runScheduled nested)

/-- Lets time pass up to `limit`, with at most this many ticks and steps on the way. Steps of
`schedule` run if `scheduled`; with `heed`, it ends as soon as `signals` differ. -/
def pass (nested : Job → Play Answer) (scheduled : Bool) (heed : Option Nat) (limit : Instant) :
    Nat → Play Unit
  | 0 => moveTo limit
  | events + 1 => do
    match nextEvent? (← get) scheduled limit nested with
    | none => moveTo limit
    | some (due, event) =>
      moveTo due
      event
      if heed.all (· = (← get).signals) then pass nested scheduled heed limit events

/-- The limit on the events of `pass` and on the looks of `Op.acquire`. -/
def patience : Nat := 1000000000

/-- The `wait` of the surroundings. -/
def wait (nested : Job → Play Answer) (d : Duration) : Play Unit := do
  let w ← get
  let heed := if w.outside.waiting = 0 then some w.signals else none
  modifyOutside fun o => { o with waiting := o.waiting + 1 }
  pass nested true heed (w.now.plus d) patience
  modifyOutside fun o => { o with waiting := o.waiting - 1 }

/-- Moves the clock on by `d`. -/
def advance (nested : Job → Play Answer) (d : Duration) : Play Unit := do
  pass nested false none ((← get).now.plus d) patience

end SessionCache.Scenario
