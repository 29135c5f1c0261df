import SessionCache.Cache.Checkout
import SessionCache.Cache.Inspection
import SessionCache.Cache.Sweeping
import SessionCache.Proofs.Store.Calls
import Mathlib.Data.Multiset.AddSub
import Mathlib.Data.Set.Insert

/-!
# A cache in use by many

Several callers use one cache. Their operations come one after the other, except where an operation
looks for room: `Op.create` and `Op.get` may have to look again and again, and anything can happen
from one look to the next. `Traffic` is a cache and its store together with the operations that are
under way and the sessions that callers have in their hands, and `Step` is what can happen to it.

* An operation that looks for room is a `Task`. `Op.create` is `Op.reserve` and then `Op.introduce`;
  `Op.get` of a key without a slot is `Op.announce`, `Op.reserve`, `Op.settle` and `Op.checkOut`;
  and `Op.reserve` is `Op.look` until a look decides. The steps of `Step` are these pieces.
* The environment is in `Step` too: time passes, callers change the states in their hands, and
  somebody may write to the backend past the cache (`Traffic.Event.tampered`).
* Calls of the backend fail as the gate of the store says, which is any function of the number of
  the call. Callbacks are any functions on what is outside; `Surroundings.Discreet` says that they
  leave the cache and its store alone.
* `Run` is any number of steps, with what the callers saw of them.
-/

namespace SessionCache

variable {σ ι ω : Type}

/-! ## Callbacks -/

/-- `w'` has the `cache` and the `store` of `w`; `now` went on, and `outside` may be anything. -/
structure Aside (w w' : World σ ω) : Prop where
  cache : w'.cache = w.cache
  store : w'.store = w.store
  now : w.now ≤ w'.now
  calendar : w.now ≤ .latest → w'.now ≤ .latest

@[simp] theorem Op.exec_lock {ι : Type} (s : Surroundings σ ι ω) (w : World σ ω) :
    exec (Op.lock s) w = (.ok (s.lockedAt w), { w with now := s.lockedAt w }) := rfl

/-- No callback, neither `instantiate` nor `freshKey`, and no wait for the lock touches the `cache`
or the `store`: each of them leaves the world `Aside`. -/
structure Surroundings.Discreet (s : Surroundings σ ι ω) : Prop where
  callback : ∀ phase key, ∀ m ∈ s.lifecycle.members phase key, ∀ frame w, Aside w ((m frame).run w).2
  instantiate : ∀ key args w, Aside w ((s.lifecycle.bean.instantiate key args).run w).2
  freshKey : ∀ w, Aside w (s.freshKey.run w).2
  lock : ∀ w, Aside w { w with now := s.lockedAt w }

/-! ## Requests and answers -/

/-- A call of the cache with its arguments. `finish key state` takes `(key, state)` out of the
caller's hands, whatever the answer. -/
inductive Request (σ ι : Type) where
  | create (args : ι)
  | get (key : Key)
  | finish (key : Key) (state : σ)
  | removeOnFinish (key : Key)
  | remove (key : Key)
  | sweep
  | passivateAll
  | expirePassivated
  | peek (key : Key)
  | contains (key : Key)

/-- The value of a call that succeeds. -/
inductive Response (σ : Type) where
  | done
  | created (key : Key)
  | checkedOut (state : σ)
  | report (report : SweepReport)
  | count (n : Nat)
  | entry (info : EntryInfo)
  | flag (b : Bool)

/-- What is seen of a `Step`. -/
inductive Traffic.Event (σ ι : Type) where
  /-- Nothing is answered. -/
  | quiet
  /-- Somebody wrote to `store.backend`, and not through the cache. -/
  | tampered
  /-- The call `request` gave `answer`. -/
  | answered (request : Request σ ι) (answer : Except CacheError (Response σ))

/-! ## Operations under way -/

/-- A `create` or `get` between two steps: it looks for a unit of room by `Op.look`, or has one and
is about to go on. -/
inductive Task (ι : Type) where
  /-- `create args` before its unit of room. -/
  | creating (args : ι) (deadline : Deadline)
  /-- `create args` with its unit of room, before `Op.introduce`. -/
  | introducing (args : ι)
  /-- `get key` with its placeholder, before its unit of room. -/
  | fetching (key : Key) (deadline : Deadline)
  /-- `get key` with its placeholder and its unit of room, before `Op.settle`. -/
  | settling (key : Key)

/-- Whether the operation has a unit of room that is counted in `Cache.occupied` but held by no
slot. -/
def Task.hasUnit : Task ι → Bool
  | .introducing _ | .settling _ => true
  | .creating _ _ | .fetching _ _ => false

/-- Whether the operation linked the placeholder of `key`. -/
def Task.awaits (key : Key) : Task ι → Bool
  | .fetching k _ | .settling k => k = key
  | .creating _ _ | .introducing _ => false

/-- What callers have in hand. -/
structure Desk (σ ι : Type) where
  /-- The operations between two steps. -/
  tasks : Multiset (Task ι) := 0
  /-- The sessions that are checked out, each with the state as its caller has it now. -/
  handles : Multiset (Key × σ) := 0
  /-- The keys that `freshKey` made, that a request named, or that had a record at the start. -/
  known : Set Key := ∅

/-- A cache in use: the `World`, and what callers have in hand. -/
structure Traffic (σ ι ω : Type) extends Desk σ ι where
  world : World σ ω

namespace Traffic

/-- `t` with the world `w`. -/
def moved (t : Traffic σ ι ω) (w : World σ ω) : Traffic σ ι ω := { t with world := w }

/-- `t` with `key` among the `known`. -/
def met (t : Traffic σ ι ω) (key : Key) : Traffic σ ι ω := { t with known := insert key t.known }

/-- `t` with `(key, state)` among the `handles` where the answer is `.ok state`. -/
def handed (t : Traffic σ ι ω) (key : Key) : Except CacheError σ → Traffic σ ι ω
  | .ok state => { t with handles := (key, state) ::ₘ t.handles }
  | .error _ => t

@[simp] theorem handed_world (t : Traffic σ ι ω) (key : Key) (r : Except CacheError σ) :
    (t.handed key r).world = t.world := by
  cases r <;> rfl

/-- No `create` or `get` is between two steps. -/
def Idle (t : Traffic σ ι ω) : Prop := t.tasks = 0

/-- `key` has a slot, if only a placeholder. -/
def Linked (t : Traffic σ ι ω) (key : Key) : Prop := t.world.cache.isLinked key = true

theorem slot?_of_not_linked {t : Traffic σ ι ω} {key : Key} (h : ¬t.Linked key) :
    t.world.cache.slot? key = none := by
  simpa [Linked, Cache.isLinked] using h

end Traffic

/-! ## Requests in one go -/

namespace Request

/-- The operation that a request calls. -/
def perform (s : Surroundings σ ι ω) : Request σ ι → Op σ ω (Response σ)
  | .create args => do return .created (← Op.create s args)
  | .get key => do return .checkedOut (← Op.get s key)
  | .finish key state => do
    Op.finish s key state
    return .done
  | .removeOnFinish key => do
    Op.removeOnFinish key
    return .done
  | .remove key => do
    Op.remove s key
    return .done
  | .sweep => do return .report (← Op.sweep s)
  | .passivateAll => do return .report (← Op.passivateAll s)
  | .expirePassivated => do return .count (← Op.expirePassivated s)
  | .peek key => do return .entry (← Op.peek s key)
  | .contains key => do return .flag (← Op.contains key)

/-- The key that a request names. -/
def key? : Request σ ι → Option Key
  | .get key | .finish key _ | .removeOnFinish key | .remove key | .peek key | .contains key => some key
  | .create _ | .sweep | .passivateAll | .expirePassivated => none

/-- Requests that are served in one step: they need no unit of room and give no session back. For
`removeOnFinish key`, the caller has to have `key` in hand. -/
def Plain (t : Traffic σ ι ω) : Request σ ι → Prop
  | .removeOnFinish key => ∃ state, (key, state) ∈ t.handles
  | .remove _ | .sweep | .passivateAll | .expirePassivated | .peek _ | .contains _ => True
  | .create _ | .get _ | .finish _ _ => False

end Request

namespace Task

/-- The deadline of an operation that has no unit of room yet. -/
def deadline? : Task ι → Option Deadline
  | .creating _ deadline | .fetching _ deadline => some deadline
  | .introducing _ | .settling _ => none

/-- The operation after `Op.look`: `.taken` leads to `.introducing` or `.settling`, anything else
changes nothing. -/
def after : Task ι → Look → Task ι
  | .creating args _, .taken => .introducing args
  | .fetching key _, .taken => .settling key
  | task, _ => task

/-- The request that the operation answers. -/
def request : Task ι → Request σ ι
  | .creating args _ | .introducing args => .create args
  | .fetching key _ | .settling key => .get key

/-- What an operation without a unit of room does before it fails with `failure`: `.fetching key`
unlinks its placeholder. -/
def withdraw (failure : CacheError) : Task ι → Op σ ω Unit
  | .fetching key _ | .settling key => Op.abandon key failure
  | .creating _ _ | .introducing _ => throw failure

end Task

/-! ## Steps -/

/-- One step of a cache in use, and what is seen of it. `Op.create` and `Op.get` of a key without a
slot take several steps, with those of others in between. -/
inductive Step (s : Surroundings σ ι ω) :
    Traffic σ ι ω → Traffic.Event σ ι → Traffic σ ι ω → Prop where
  /-- The clock goes on to `now`. -/
  | pass {t : Traffic σ ι ω} {now : Instant} (h : t.world.now ≤ now) (hc : now ≤ .latest) :
      Step s t .quiet (t.moved { t.world with now })
  /-- Somebody replaces `store.backend`. -/
  | tamper {t : Traffic σ ι ω} (backend : Backend) :
      Step s t .tampered (t.moved { t.world with store := { t.world.store with backend } })
  /-- A caller changes the state that it has checked out. -/
  | edit {t : Traffic σ ι ω} {key : Key} {state : σ} {rest : Multiset (Key × σ)} (state' : σ)
      (h : t.handles = (key, state) ::ₘ rest) :
      Step s t .quiet { t with handles := (key, state') ::ₘ rest }
  /-- A `Plain` request is served. -/
  | serve {t : Traffic σ ι ω} {request : Request σ ι} {answer : Except CacheError (Response σ)}
      {w : World σ ω} (h : request.Plain t) (hw : exec (request.perform s) t.world = (answer, w)) :
      Step s t (.answered request answer)
        { t.moved w with known := { key | key ∈ t.known ∨ request.key? = some key } }
  /-- `Op.finish` with a state from a caller's hands. -/
  | finish {t : Traffic σ ι ω} {key : Key} {state : σ} {rest : Multiset (Key × σ)}
      {answer : Except CacheError Unit} {w : World σ ω} (h : t.handles = (key, state) ::ₘ rest)
      (hw : exec (Op.finish s key state) t.world = (answer, w)) :
      Step s t (.answered (.finish key state) (answer.map fun _ => .done))
        { t.moved w with handles := rest }
  /-- `Op.get` of a key that has a slot. -/
  | get {t : Traffic σ ι ω} {key : Key} {answer : Except CacheError σ} {w : World σ ω}
      (h : t.Linked key) (hw : exec (Op.get s key) t.world = (answer, w)) :
      Step s t (.answered (.get key) (answer.map .checkedOut))
        (((t.moved w).met key).handed key answer)
  /-- `Op.get` of a key without a slot, for which `Op.announce` fails. -/
  | miss {t : Traffic σ ι ω} {key : Key} {failure : CacheError} {w : World σ ω}
      (h : ¬t.Linked key) (hw : exec (Op.announce key) t.world = (.error failure, w)) :
      Step s t (.answered (.get key) (.error failure)) ((t.moved w).met key)
  /-- `Op.get` of a key without a slot, for which `Op.announce` finds a record. -/
  | fetch {t : Traffic σ ι ω} {key : Key} {w : World σ ω}
      (h : ¬t.Linked key) (hw : exec (Op.announce key) t.world = (.ok (), w)) :
      Step s t .quiet
        { (t.moved w).met key with
          tasks := .fetching key (.ofSettings s.settings w.now) ::ₘ t.tasks }
  /-- `Op.create` before its first look for room. -/
  | create {t : Traffic σ ι ω} (args : ι) :
      Step s t .quiet
        { t with tasks := .creating args (.ofSettings s.settings t.world.now) ::ₘ t.tasks }
  /-- `Op.look` for an operation without a unit of room. -/
  | look {t : Traffic σ ι ω} {task : Task ι} {rest : Multiset (Task ι)} {deadline : Deadline}
      {found : Look} {w : World σ ω} (h : t.tasks = task ::ₘ rest)
      (hd : task.deadline? = some deadline)
      (hw : exec (Op.look s deadline) t.world = (.ok found, w)) :
      Step s t .quiet { t.moved w with tasks := task.after found ::ₘ rest }
  /-- `Op.look` fails, and with it the operation. -/
  | fail {t : Traffic σ ι ω} {task : Task ι} {rest : Multiset (Task ι)} {deadline : Deadline}
      {failure : CacheError} {w w' : World σ ω} (h : t.tasks = task ::ₘ rest)
      (hd : task.deadline? = some deadline)
      (hw : exec (Op.look s deadline) t.world = (.error failure, w))
      (hw' : exec (task.withdraw failure) w = (.error failure, w')) :
      Step s t (.answered task.request (.error failure)) { t.moved w' with tasks := rest }
  /-- `Op.acquire` is out of looks: the operation answers `.stalled`. -/
  | giveUp {t : Traffic σ ι ω} {task : Task ι} {rest : Multiset (Task ι)} {deadline : Deadline}
      {w : World σ ω} (h : t.tasks = task ::ₘ rest) (hd : task.deadline? = some deadline)
      (hw : exec (task.withdraw .stalled) t.world = (.error .stalled, w)) :
      Step s t (.answered task.request (.error .stalled)) { t.moved w with tasks := rest }
  /-- `Op.introduce` for an operation with a unit of room; `freshKey` makes a key that is not
  `known`. -/
  | introduce {t : Traffic σ ι ω} {args : ι} {rest : Multiset (Task ι)}
      {answer : Except CacheError Key} {w : World σ ω} (h : t.tasks = .introducing args ::ₘ rest)
      (hk : (s.freshKey.run t.world).1 ∉ t.known)
      (hw : exec (Op.introduce s args) t.world = (answer, w)) :
      Step s t (.answered (.create args) (answer.map .created))
        { (t.moved w).met (s.freshKey.run t.world).1 with tasks := rest }
  /-- `Op.settle` and `Op.checkOut` for an operation with a unit of room. -/
  | settle {t : Traffic σ ι ω} {key : Key} {rest : Multiset (Task ι)}
      {answer : Except CacheError σ} {w : World σ ω} (h : t.tasks = .settling key ::ₘ rest)
      (hw : exec (do Op.settle s key; Op.checkOut s key) t.world = (answer, w)) :
      Step s t (.answered (.get key) (answer.map .checkedOut))
        ({ t.moved w with tasks := rest }.handed key answer)

/-- Any number of steps, with the events of them in order. -/
inductive Run (s : Surroundings σ ι ω) :
    Traffic σ ι ω → List (Traffic.Event σ ι) → Traffic σ ι ω → Prop where
  | nil {t : Traffic σ ι ω} : Run s t [] t
  | snoc {t t' t'' : Traffic σ ι ω} {events : List (Traffic.Event σ ι)} {event : Traffic.Event σ ι}
      (h : Run s t events t') (h' : Step s t' event t'') : Run s t (events ++ [event]) t''

/-- No event is `.tampered`. -/
def Undisturbed (events : List (Traffic.Event σ ι)) : Prop := .tampered ∉ events

/-- A cache that nothing was done with: no slots, nothing in callers' hands, and each key with a
record `known`. -/
structure Traffic.Fresh (s : Surroundings σ ι ω) (t : Traffic σ ι ω) : Prop where
  cache : t.world.cache = { usage := { idleTimeout := s.settings.idleTimeout } }
  tasks : t.tasks = 0
  handles : t.handles = 0
  stored : ∀ key, t.world.store.contents key ≠ none → key ∈ t.known

/-- A cache that is opened over `store` at the time `now`. -/
def Traffic.opened (s : Surroundings σ ι ω) (store : Store) (now : Instant) (outside : ω) :
    Traffic σ ι ω where
  known := { key | store.contents key ≠ none }
  world := { cache := { usage := { idleTimeout := s.settings.idleTimeout } }, store, now, outside }

theorem Traffic.opened_fresh (s : Surroundings σ ι ω) (store : Store) (now : Instant)
    (outside : ω) : (opened s store now outside).Fresh s :=
  ⟨rfl, rfl, rfl, fun _ h => h⟩

theorem Run.trans {s : Surroundings σ ι ω} {t t' t'' : Traffic σ ι ω}
    {events events' : List (Traffic.Event σ ι)} (h : Run s t events t') (h' : Run s t' events' t'') :
    Run s t (events ++ events') t'' := by
  induction h' with
  | nil => simpa using h
  | snoc _ hstep ih => rw [← List.append_assoc]; exact .snoc ih hstep

end SessionCache
