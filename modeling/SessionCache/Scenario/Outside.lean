import SessionCache.Cache.Sweeper
import SessionCache.Scenario.Answer
import SessionCache.Scenario.Step

/-!
# What a scenario keeps besides the cache

The log, the rules for callbacks, the sessions that are checked out, the steps that are put off,
the sweeper, and the caches and backends that nobody is working on.

* `Outside.meet?` finds the rule of a callback and counts it.
* `Outside.isAlive` tells whether anybody still has a cache.
-/

namespace SessionCache.Scenario

/-- A failure of the calls of one name. -/
structure Fault where
  call : CallName
  /-- For one key only, or for all. -/
  key : Option Key
  error : StoreError

/-- A checked-out session, with the number of its cache. -/
structure Handle where
  cache : Nat
  cart : Cart

/-- A cache that is not in focus. -/
structure Home where
  cache : Cache Cart
  /-- The `signals` of its world. -/
  signals : Nat := 0
  /-- The number of its backend. -/
  backend : Nat

/-- The numbers of the cache and the backend in focus. -/
structure Focus where
  cache : Nat
  backend : Nat
  deriving DecidableEq

/-- What can run inside of something else. -/
inductive Job where
  | step (step : Step)
  /-- A sweep of a cache. -/
  | sweep (cache : Nat)

/-- The state of a scenario outside of `World`. -/
structure Outside where
  /-- Latest line first. -/
  log : List LogLine := []
  /-- In the order in which they were added. -/
  rules : List Rule := []
  /-- The sessions that are checked out, each key at most once. -/
  handles : List (Key × Handle) := []
  /-- How many keys were made. -/
  made : Nat := 0
  /-- The start of the current step. -/
  started : Instant
  /-- The steps that are put off, earliest first. -/
  schedule : List Scheduled := []
  /-- The steps that ran while the current one waited, latest first. -/
  ran : List (Duration × Answer) := []
  /-- The number of operations that are waiting, one inside of the other. -/
  waiting : Nat := 0
  /-- The sweeper is in its tick. -/
  ticking : Bool := false
  /-- The sweeper, with the number of its cache. -/
  sweeper : Option (Sweeper × Nat) := none
  faults : List Fault := []
  /-- All caches. The entry of the one in focus is out of date. -/
  homes : List Home
  /-- All backends. The entry of the one in focus is out of date. -/
  backends : List Backend
  focus : Focus := ⟨0, 0⟩
  /-- The caches with an operation under way, innermost first. -/
  busy : List Nat := []
  /-- The number of the current cache. -/
  current : Option Nat
  /-- The number of the open backend. -/
  openBackend : Nat := 0

/-- A computation in a scenario. -/
abbrev Play := Act Cart Outside

/-- Changes what is kept besides the cache. -/
def modifyOutside (f : Outside → Outside) : Play Unit :=
  modify fun w => { w with outside := f w.outside }

/-- Adds a line to the log. -/
def say (line : LogLine) : Play Unit := modifyOutside fun o => { o with log := line :: o.log }

/-- The rule is for callbacks of `point` and `key`. -/
def Rule.governs (r : Rule) (point : String) (key : Key) : Bool :=
  r.point = point && r.concerns key && r.times != some 0

namespace Outside

/-- The first rule that governs the callback, if it counts, and the rules with one `skip` or `times`
less. -/
def meet? (point : String) (key : Key) : List Rule → Option Rule × List Rule
  | [] => (none, [])
  | r :: rest =>
    if r.governs point key then
      if r.skip = 0 then (some r, { r with times := r.times.map (· - 1) } :: rest)
      else (none, { r with skip := r.skip - 1 } :: rest)
    else
      let (met, rest) := meet? point key rest
      (met, r :: rest)

/-- The cache is the current one, or has an operation under way or a session checked out. -/
def isAlive (o : Outside) (cache : Nat) : Bool :=
  o.current == some cache || o.busy.contains cache || o.handles.any (·.2.cache == cache)

/-- The failure that `faults` have for a call. -/
def faultOf? (faults : List Fault) (call : StoreCall) : Option StoreError :=
  let (name, key) := CallName.ofCall call
  (faults.find? fun f => f.call = name && (f.key.isNone || f.key = key)).map (·.error)

end Outside

/-! ## Callbacks -/

/-- Logs a callback and runs its rule; the answer is its failure. -/
def reachPoint (nested : Job → Play Answer) (point : String) (key : Key) :
    Play (Option String) := do
  say (.callback point key)
  let w ← get
  let (met, rules) := Outside.meet? point key w.outside.rules
  modifyOutside fun o => { o with rules }
  match met with
  | none => return none
  | some r =>
    for (name, step) in r.run do
      let answer ← nested (.step step)
      say (.nested name answer)
    return r.failure

/-- Adds a mark to the items of a cart, where `marks` are on. -/
def mark (marks : Bool) (text : String) (cart : Cart) : Cart :=
  if marks then { cart with items := cart.items ++ [text] } else cart

/-- The callback of the bean. `.postInvoke` counts the call. -/
def beanCallback (nested : Job → Play Answer) (marks : Bool) : Callback Cart Outside :=
  fun phase key state => do
    let count := if phase = .postInvoke then Cart.countCall else id
    let state := state.map fun cart => mark marks phase.name (count cart)
    return (state, ← reachPoint nested ("bean " ++ phase.name) key)

/-- A callback of an interceptor, which marks the cart with its name and phase. -/
def interceptorCallback (nested : Job → Play Answer) (marks : Bool) (occasion sign name : String) :
    Callback Cart Outside :=
  fun phase key state => do
    let state := state.map (mark marks (name ++ sign ++ phase.name))
    return (state, ← reachPoint nested (occasion ++ " " ++ name ++ " " ++ phase.name) key)

/-- The interceptor of this name. Two names stand for interceptors without effect. -/
def interceptor (nested : Job → Play Answer) (marks : Bool) (name : String) :
    Interceptor Cart Outside :=
  if name = "tracing" ∨ name = "idle" then {}
  else {
    before := (interceptorCallback nested marks "before" ">" name).hook
    after := (interceptorCallback nested marks "after" "<" name).hook }

/-- The bean: the arguments are the first state. -/
def bean (nested : Job → Play Answer) (marks : Bool) : Bean Cart Cart Outside where
  instantiate key cart := do
    match ← reachPoint nested "bean instantiate" key with
    | some message => return .error message
    | none => return .ok cart
  callback := beanCallback nested marks

end SessionCache.Scenario
