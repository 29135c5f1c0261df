import SessionCache.Proofs.Cache.Slots
import SessionCache.Proofs.Traffic.Firing

/-!
# What can happen to a session

A `Scene` is a cache in use without what no session depends on: of the store only the bytes under
each key are left, and which calls fail. However an operation ends, what it did is a few shifts of
the scene one after the other. `Shift` lists them all; each either leaves a session in its place or
takes it all the way to the next one, callbacks and record included. What holds in every scene is
therefore proved for `Shift`, and what an operation does is stated as a `Path`.

* **Deeds** (`Deed`): what becomes of a session in a shift, and the callbacks that ran.
* **The callbacks** of a shift ran while it was under way (`Surroundings.Story`). A shift takes
  place at one time; the time that its callbacks take is a shift of its own (`Shift.pass`). Only
  `Slot.lastAccess` may be older: it is read before the lock on the slots is free.
* **Tasks**: a shift by an operation that is under way names its `Task`.
-/

namespace SessionCache

variable {σ ι ω : Type}

/-- What the traffic of sessions depends on: the slots and tracker of `cache`, the `contents` of the
store, and what callers have in hand. The number of calls and signals does not belong to it. -/
structure Scene (σ ι ω : Type) extends Desk σ ι where
  cache : Cache σ
  /-- `Store.contents`: the bytes under each key. -/
  contents : Key → Option ByteArray
  /-- `Store.fault`. -/
  fault : Nat → StoreCall → Option StoreError
  now : Instant
  outside : ω

/-- The scene of `w`, with `d` in the hands of callers. -/
def World.scene (w : World σ ω) (d : Desk σ ι) : Scene σ ι ω :=
  { d with
    cache := w.cache
    contents := w.store.contents
    fault := w.store.fault
    now := w.now
    outside := w.outside }

/-- The scene of `t.world`, with what `t` has in hand. -/
def Traffic.scene (t : Traffic σ ι ω) : Scene σ ι ω := t.world.scene t.toDesk

/-- What a `Shift` does to a session. -/
inductive Deed (σ : Type) where
  /-- The callbacks of `f.phase` ran for `f.key`. -/
  | fired (f : Firing)
  /-- `Op.introduce` made `key`; `state` is its state after `.postConstruct`. -/
  | entered (key : Key) (state : σ)
  /-- `Op.introduce` failed for the fresh `key`. -/
  | unmade (key : Key)
  /-- `Op.checkOut` handed out `state`. -/
  | checkedOut (key : Key) (state : σ)
  /-- `Op.finish` took `state` back. -/
  | returned (key : Key) (state : σ)
  /-- `Op.removeOnFinish` set `removePending`. -/
  | deferred (key : Key)
  /-- `Op.remove` or `Op.finish` removed the session, with `.preDestroy`. -/
  | removed (key : Key)
  /-- A callback failed, and the session was given up by `forceRemove` or `discardRecord`. -/
  | lost (key : Key)
  /-- The record did not decode, and was deleted. -/
  | spoiled (key : Key)
  /-- Somebody wrote to `store.backend`, and not through the cache. -/
  | tampered

namespace Scene

/-- What `discardRecord key` leaves as the contents: `key` has no record, or it has the one it had
and `fault` lets a delete of it fail. -/
def Discards (x : Scene σ ι ω) (key : Key) (contents : Key → Option ByteArray) : Prop :=
  contents = Function.update x.contents key none ∨
    contents = x.contents ∧ (x.contents key ≠ none → ∃ n, x.fault n (.delete key) ≠ none)

/-- `key` has a record and no slot, or is about to be brought into memory by an operation `.settling
key`. -/
def Away (x : Scene σ ι ω) (key : Key) : Prop :=
  x.cache.slot? key = none ∧ x.contents key ≠ none ∨ .settling key ∈ x.tasks

end Scene

/-- What an operation can do at once to the `Scene`, and the deeds of it. Each constructor is one
case of what some operation comes to. -/
inductive Shift (s : Surroundings σ ι ω) : Scene σ ι ω → List (Deed σ) → Scene σ ι ω → Prop where
  /-- The clock goes on. -/
  | pass {x : Scene σ ι ω} {now : Instant} (h : x.now ≤ now)
      (hc : x.now ≤ .latest → now ≤ .latest) : Shift s x [] { x with now }
  /-- The counters change, but for `removed`. -/
  | count {x : Scene σ ι ω} (counters : Counters)
      (h : counters.removed = x.cache.counters.removed) :
      Shift s x [] { x with cache := { x.cache with counters } }
  /-- `Cache.promote`. -/
  | promote {x : Scene σ ι ω} (key : Key) : Shift s x [] { x with cache := x.cache.promote key }
  /-- `key` becomes `known`. -/
  | meet {x : Scene σ ι ω} (key : Key) : Shift s x [] { x with known := insert key x.known }
  /-- A caller changes the state that it has checked out. -/
  | edit {x : Scene σ ι ω} {key : Key} {state : σ} {rest : Multiset (Key × σ)} (state' : σ)
      (h : x.handles = (key, state) ::ₘ rest) :
      Shift s x [] { x with handles := (key, state') ::ₘ rest }
  /-- Somebody replaces `store.backend`. -/
  | tamper {x : Scene σ ι ω} (contents : Key → Option ByteArray) :
      Shift s x [.tampered] { x with contents }
  /-- `Op.expirePassivated` deletes records. -/
  | purge {x : Scene σ ι ω} {contents : Key → Option ByteArray}
      (h : s.settings.removalTimeout ≠ none) (hc : Store.Fewer x.contents contents) :
      Shift s x [] { x with contents }
  /-- Callbacks run for keys that are `Away`. If one failed, `fault` lets a delete of its key
  fail. -/
  | attend {x : Scene σ ι ω} {o : ω} (fs : List Firing)
      (h : ∀ f ∈ fs, x.Away f.key ∧ (f.failed = true → ∃ n, x.fault n (.delete f.key) ≠ none))
      (ho : s.Story fs x.outside o) : Shift s x (fs.map .fired) { x with outside := o }
  /-- `Op.create` starts. -/
  | ask {x : Scene σ ι ω} (args : ι) (deadline : Deadline) :
      Shift s x [] { x with tasks := .creating args deadline ::ₘ x.tasks }
  /-- `Op.announce` links a placeholder for a `key` with a record. -/
  | announce {x : Scene σ ι ω} {key : Key} {slot : Slot σ} (deadline : Deadline)
      (h : x.cache.slot? key = none) (hr : x.contents key ≠ none) (hslot : slot.IsPlaceholder) :
      Shift s x []
        { x with
          cache := x.cache.link key slot
          tasks := .fetching key deadline ::ₘ x.tasks
          known := insert key x.known }
  /-- `Op.look` takes a unit of room, which `task` has from now on. -/
  | take {x : Scene σ ι ω} {task : Task ι} {rest : Multiset (Task ι)} {deadline : Deadline}
      (h : x.tasks = task ::ₘ rest) (hd : task.deadline? = some deadline)
      (hc : x.cache.occupied < s.settings.maxSize) :
      Shift s x []
        { x with
          cache := { x.cache with occupied := x.cache.occupied + 1 }
          tasks := task.after .taken ::ₘ rest }
  /-- `Op.create` fails without a unit of room. -/
  | quit {x : Scene σ ι ω} {args : ι} {deadline : Deadline} {rest : Multiset (Task ι)}
      (h : x.tasks = .creating args deadline ::ₘ rest) : Shift s x [] { x with tasks := rest }
  /-- `Op.get` fails without a unit of room, and unlinks its placeholder. -/
  | abandon {x : Scene σ ι ω} {key : Key} {deadline : Deadline} {rest : Multiset (Task ι)}
      (h : x.tasks = .fetching key deadline ::ₘ rest) :
      Shift s x [] { x with cache := x.cache.unlink key, tasks := rest }
  /-- `Op.settle` fails: the unit of room and the placeholder go away. -/
  | retreat {x : Scene σ ι ω} {key : Key} {rest : Multiset (Task ι)}
      (h : x.tasks = .settling key ::ₘ rest) :
      Shift s x [] { x with cache := x.cache.retract key, tasks := rest }
  /-- `Op.settle` succeeds: the record of `key` decodes to `state`, `.postActivate` turns it into
  `state'`, the record is deleted, and the slot is `.ready`. -/
  | settle {x : Scene σ ι ω} {key : Key} {rest : Multiset (Task ι)} {bytes : ByteArray}
      {state state' : σ} {o : ω} {time : Instant} (h : x.tasks = .settling key ::ₘ rest)
      (hr : x.contents key = some bytes) (hb : Store.stateOf s.codec key bytes = .ok state)
      (ht : s.Turns .postActivate key state state') (hl : time ≤ x.now)
      (ho : s.Story [⟨.preActivate, key, false⟩, ⟨.postActivate, key, false⟩] x.outside o) :
      Shift s x [.fired ⟨.preActivate, key, false⟩, .fired ⟨.postActivate, key, false⟩]
        { x with
          cache := (x.cache.update key (·.toSettled time state')).markIdle x.now key
          contents := Function.update x.contents key none
          tasks := rest
          outside := o }
  /-- A callback fails in `Op.load`: the placeholder goes away, and `discardRecord` follows. -/
  | loseComing {x : Scene σ ι ω} {key : Key} {rest : Multiset (Task ι)} {phase : Phase}
      {contents : Key → Option ByteArray} {o : ω} (h : x.tasks = .settling key ::ₘ rest)
      (hc : x.Discards key contents) (ho : s.Story [⟨phase, key, true⟩] x.outside o) :
      Shift s x [.fired ⟨phase, key, true⟩, .lost key]
        { x with
          cache := (x.cache.retract key).countRemoved
          contents
          tasks := rest
          outside := o }
  /-- `Op.introduce` succeeds: `.postConstruct` turns `state` into `state'`, and the slot is
  `.ready`. -/
  | enter {x : Scene σ ι ω} {key : Key} {args : ι} {rest : Multiset (Task ι)} {slot : Slot σ}
      {state state' : σ} {o : ω} (h : x.tasks = .introducing args ::ₘ rest) (hk : key ∉ x.known)
      (hm : s.Makes key args state) (ht : s.Turns .postConstruct key state state')
      (hslot : slot.IsReady state') (hl : slot.lastAccess ≤ x.now)
      (ho : s.Story [⟨.postConstruct, key, false⟩] x.outside o) :
      Shift s x [.fired ⟨.postConstruct, key, false⟩, .entered key state']
        { x with
          cache := (x.cache.link key slot).markIdle x.now key
          tasks := rest
          known := insert key x.known
          outside := o }
  /-- `Op.introduce` fails: the unit of room is given back. -/
  | unmade {x : Scene σ ι ω} {key : Key} {args : ι} {rest : Multiset (Task ι)} {o : ω}
      (fs : List Firing) (h : x.tasks = .introducing args ::ₘ rest) (hk : key ∉ x.known)
      (hf : fs = [] ∨ fs = [⟨.postConstruct, key, true⟩]) (ho : s.Story fs x.outside o) :
      Shift s x (fs.map .fired ++ [.unmade key])
        { x with
          cache := { x.cache with occupied := x.cache.occupied - 1 }
          tasks := rest
          known := insert key x.known
          outside := o }
  /-- `Op.checkOut` succeeds: `.preInvoke` turns `state` into `state'`, which goes to the caller. -/
  | checkOut {x : Scene σ ι ω} {key : Key} {slot : Slot σ} {state state' : σ} {o : ω}
      (time : Instant) (h : x.cache.slot? key = some slot) (hslot : slot.IsReady state)
      (ht : s.Turns .preInvoke key state state')
      (ho : s.Story [⟨.preInvoke, key, false⟩] x.outside o) :
      Shift s x [.fired ⟨.preInvoke, key, false⟩, .checkedOut key state']
        { x with
          cache := (x.cache.update key (·.toOut time)).markInUse x.now key
          handles := (key, state') ::ₘ x.handles
          outside := o }
  /-- `Op.passivate` writes the record of what `.prePassivate` makes of the state, and unlinks
  `key`. -/
  | park {x : Scene σ ι ω} {key : Key} {slot : Slot σ} {state state' : σ} {value : Json.Value}
      {o : ω} (h : x.cache.slot? key = some slot) (hslot : slot.IsReady state)
      (ht : s.Turns .prePassivate key state state') (hv : s.codec.encode state' = .ok value)
      (ho : s.Story [⟨.prePassivate, key, false⟩] x.outside o) :
      Shift s x [.fired ⟨.prePassivate, key, false⟩]
        { x with
          cache := x.cache.unlink key
          contents := Function.update x.contents key (some (Envelope.encode key x.now value))
          outside := o }
  /-- `Op.takeBack` after a failed write: `.postActivate` makes `state''` of what `.prePassivate`
  made of the state, and the slot stays `.ready`. -/
  | stay {x : Scene σ ι ω} {key : Key} {slot : Slot σ} {state state' state'' : σ} {o : ω}
      (h : x.cache.slot? key = some slot) (hslot : slot.IsReady state)
      (ht : s.Turns .prePassivate key state state')
      (ht' : s.Turns .postActivate key state' state'')
      (ho : s.Story [⟨.prePassivate, key, false⟩, ⟨.postActivate, key, false⟩] x.outside o) :
      Shift s x [.fired ⟨.prePassivate, key, false⟩, .fired ⟨.postActivate, key, false⟩]
        { x with cache := x.cache.update key (·.toKept state''), outside := o }
  /-- `Op.destroy` of a `.ready` session; `failed` tells whether `.preDestroy` failed. -/
  | leave {x : Scene σ ι ω} {key : Key} {slot : Slot σ} {state : σ} {failed : Bool} {o : ω}
      (h : x.cache.slot? key = some slot) (hslot : slot.IsReady state)
      (ho : s.Story [⟨.preDestroy, key, failed⟩] x.outside o) :
      Shift s x [.fired ⟨.preDestroy, key, failed⟩, .removed key]
        { x with cache := (x.cache.unlink key).countRemoved, outside := o }
  /-- `forceRemove` of a `.ready` session after a callback failed, the first one or one after the
  firings `fs`. -/
  | lose {x : Scene σ ι ω} {key : Key} {slot : Slot σ} {state : σ} {phase : Phase}
      {contents : Key → Option ByteArray} {o : ω} (fs : List Firing)
      (h : x.cache.slot? key = some slot) (hslot : slot.IsReady state)
      (hf : ∀ f ∈ fs, f.key = key) (hc : x.Discards key contents)
      (ho : s.Story (fs ++ [⟨phase, key, true⟩]) x.outside o) :
      Shift s x (fs.map .fired ++ [.fired ⟨phase, key, true⟩, .lost key])
        { x with cache := (x.cache.unlink key).countRemoved, contents, outside := o }
  /-- `Op.removeOnFinish`. -/
  | defer {x : Scene σ ι ω} {key : Key} {slot : Slot σ}
      (h : x.cache.slot? key = some slot) (hslot : slot.IsOut) :
      Shift s x [.deferred key]
        { x with cache := x.cache.update key (·.toPending) }
  /-- `Op.regain` succeeds: `.postInvoke` turns `state` into `state'`, and the slot is `.ready`. -/
  | giveIn {x : Scene σ ι ω} {key : Key} {slot : Slot σ} {rest : Multiset (Key × σ)}
      {state state' : σ} {o : ω} {time : Instant} (hh : x.handles = (key, state) ::ₘ rest)
      (h : x.cache.slot? key = some slot) (hslot : slot.IsOut) (hp : slot.removePending = false)
      (ht : s.Turns .postInvoke key state state') (hl : time ≤ x.now)
      (ho : s.Story [⟨.postInvoke, key, false⟩] x.outside o) :
      Shift s x [.fired ⟨.postInvoke, key, false⟩, .returned key state']
        { x with
          cache := (x.cache.update key (·.toReady time state')).markIdle x.now key
          handles := rest
          outside := o }
  /-- `Op.finish` with `removePending`: `Op.destroy`. -/
  | leaveOut {x : Scene σ ι ω} {key : Key} {slot : Slot σ} {rest : Multiset (Key × σ)} {state : σ}
      {failed : Bool} {o : ω} (hh : x.handles = (key, state) ::ₘ rest)
      (h : x.cache.slot? key = some slot) (hslot : slot.IsOut) (hp : slot.removePending = true)
      (ho : s.Story [⟨.preDestroy, key, failed⟩] x.outside o) :
      Shift s x [.fired ⟨.preDestroy, key, failed⟩, .removed key]
        { x with
          cache := (x.cache.unlink key).countRemoved
          handles := rest
          outside := o }
  /-- `Op.regain` fails in `.postInvoke`: `forceRemove`. -/
  | loseOut {x : Scene σ ι ω} {key : Key} {slot : Slot σ} {rest : Multiset (Key × σ)} {state : σ}
      {contents : Key → Option ByteArray} {o : ω} (hh : x.handles = (key, state) ::ₘ rest)
      (h : x.cache.slot? key = some slot) (hslot : slot.IsOut) (hp : slot.removePending = false)
      (hc : x.Discards key contents) (ho : s.Story [⟨.postInvoke, key, true⟩] x.outside o) :
      Shift s x [.fired ⟨.postInvoke, key, true⟩, .lost key]
        { x with
          cache := (x.cache.unlink key).countRemoved
          contents
          handles := rest
          outside := o }
  /-- `Op.removePassivated` deletes the record of `key`; `failed` tells whether `.preDestroy`
  failed. -/
  | erase {x : Scene σ ι ω} {key : Key} {bytes : ByteArray} {state : σ} {failed : Bool} {o : ω}
      (h : x.cache.slot? key = none) (hr : x.contents key = some bytes)
      (hb : Store.stateOf s.codec key bytes = .ok state)
      (ho : s.Story [⟨.preDestroy, key, failed⟩] x.outside o) :
      Shift s x [.fired ⟨.preDestroy, key, failed⟩, .removed key]
        { x with
          cache := x.cache.countRemoved
          contents := Function.update x.contents key none
          outside := o }
  /-- A record that does not decode is deleted by `Store.activate`. -/
  | spoil {x : Scene σ ι ω} {key : Key} {bytes : ByteArray} {fault : RecordFault}
      (h : x.cache.slot? key = none) (hr : x.contents key = some bytes)
      (hb : Store.stateOf s.codec key bytes = .error fault) :
      Shift s x [.spoiled key]
        { x with
          cache := x.cache.countRemoved
          contents := Function.update x.contents key none }
  /-- A callback fails in `Op.seeOff`, after `park`: `discardRecord` follows. -/
  | loseParked {x : Scene σ ι ω} {key : Key} {phase : Phase} {contents : Key → Option ByteArray}
      {o : ω} (h : x.cache.slot? key = none) (hr : x.contents key ≠ none)
      (hc : x.Discards key contents) (ho : s.Story [⟨phase, key, true⟩] x.outside o) :
      Shift s x [.fired ⟨phase, key, true⟩, .lost key]
        { x with cache := x.cache.countRemoved, contents, outside := o }

/-- Shifts one after the other, with the deeds of all of them in order. -/
inductive Path (s : Surroundings σ ι ω) : Scene σ ι ω → List (Deed σ) → Scene σ ι ω → Prop where
  | nil {x : Scene σ ι ω} : Path s x [] x
  | cons {x x' x'' : Scene σ ι ω} {ds ds' : List (Deed σ)} (h : Shift s x ds x')
      (h' : Path s x' ds' x'') : Path s x (ds ++ ds') x''

namespace Path

variable {s : Surroundings σ ι ω} {x x' x'' : Scene σ ι ω} {ds ds' : List (Deed σ)}

theorem one (h : Shift s x ds x') : Path s x ds x' := by simpa using Path.cons h .nil

theorem trans (h : Path s x ds x') (h' : Path s x' ds' x'') : Path s x (ds ++ ds') x'' := by
  induction h with
  | nil => exact h'
  | cons hs _ ih => rw [List.append_assoc]; exact .cons hs (ih h')

/-- A path that starts with shifts without deeds has the deeds of the rest. -/
theorem quietly (h : Path s x [] x') (h' : Path s x' ds x'') : Path s x ds x'' := h.trans h'

/-- A path that ends with shifts without deeds has the deeds of the beginning. -/
theorem still (h : Path s x ds x') (h' : Path s x' [] x'') : Path s x ds x'' := by
  simpa using h.trans h'

/-- A property that each shift keeps holds at the end of a path if it holds at the start. -/
theorem keeps {P : Scene σ ι ω → Prop} (hP : ∀ {x ds x'}, Shift s x ds x' → P x → P x')
    (h : Path s x ds x') (hx : P x) : P x' := by
  induction h with
  | nil => exact hx
  | cons hs _ ih => exact ih (hP hs hx)

end Path

end SessionCache
