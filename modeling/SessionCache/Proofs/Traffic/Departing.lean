import SessionCache.Proofs.Traffic.Places

/-!
# How sessions leave memory

`Op.Departed` says to the last slot, record and counter what the passivation of a ready session may
lead to, by what the store answers to writing the record. Its paths (`Op.Parted`) leave out what no
session depends on, like the counters; here nothing is left out.

* `Op.exec_departed`: how passivation ends.
* `Op.Departed.spares`: other sessions, and their records, are as they were.
* `Op.Departed.of_refused`: a session that cannot be written stays as it was, or is lost if one of
  its callbacks fails.
-/

namespace SessionCache

variable {σ ι ω : Type} {s : Surroundings σ ι ω} {d : Desk σ ι} {w w' : World σ ω} {key k : Key}
  {slot : Slot σ} {state : σ}

/-- The answer of `Store.passivate` at `time`. -/
def Store.writing (store : Store) (codec : Codec σ) (key : Key) (time : Instant) (state : σ) :
    Except CacheError Unit := (exec (passivate codec time key state) store).1

/-- `Store.passivate` fails whatever the time: `codec.encode` fails (`refuses_of_encode`), or `put`
does (`refuses_of_put`). -/
def Store.Refuses (store : Store) (codec : Codec σ) (key : Key) (state : σ) : Prop :=
  ∀ time, ∃ failure, store.writing codec key time state = .error failure

theorem Store.refuses_of_encode {store : Store} {codec : Codec σ} {message : String}
    (h : codec.encode state = .error message) : store.Refuses codec key state := by
  intro time
  rw [writing, passivate, h]
  exact ⟨_, rfl⟩

/-- `Store.passivate` fails with `.serialization key` or with an error of the store. -/
theorem Store.writing_error {store : Store} {codec : Codec σ} {time : Instant} {failure : CacheError}
    (h : store.writing codec key time state = .error failure) :
    (∃ message, failure = .serialization key message) ∨ ∃ e, failure = .store e := by
  unfold writing at h
  rcases hp : exec (passivate codec time key state) store with ⟨r, store'⟩
  rw [hp] at h
  obtain rfl : r = .error failure := h
  obtain ⟨-, ⟨_, hok, -⟩ | ⟨message, he, -⟩ | ⟨e, he, -⟩⟩ := exec_passivate hp
  · exact nomatch hok
  · exact .inl ⟨message, Except.error.inj he⟩
  · exact .inr ⟨e, Except.error.inj he⟩

/-- Each firing of a story `Fires` somewhere. -/
theorem Surroundings.Story.fires {fs : List Firing} {o o' : ω} (h : s.Story fs o o') :
    ∀ f ∈ fs, ∃ o o', s.Fires f o o' := by
  induction h with
  | nil => exact fun f hmem => absurd hmem List.not_mem_nil
  | fire hf _ ih =>
    intro f hmem
    obtain rfl | hmem := List.mem_cons.mp hmem
    · exact ⟨_, _, hf⟩
    · exact ih f hmem
  | prepare _ _ ih => exact ih

/-- No callback touches the world but for `now` and `outside`, changes a state, or fails. -/
structure Surroundings.Calm (s : Surroundings σ ι ω) : Prop where
  discreet : s.Discreet
  succeeds : ∀ f o o', s.Fires f o o' → f.failed = false
  turns : ∀ phase key state state', s.Turns phase key state state' → state' = state

/-- `update key f` changes nothing where `f` keeps the slot of `key`. -/
theorem Cache.update_of_fixed {c : Cache σ} (hc : c.Distinct) (h : c.slot? key = some slot)
    {f : Slot σ → Slot σ} (hf : f slot = slot) : c.update key f = c := by
  have hslots : c.slots.map (Assoc.change key f) = c.slots := by
    refine (List.map_congr_left fun e he => ?_).trans (List.map_id _)
    unfold Assoc.change
    split
    · rename_i hk
      obtain ⟨k, slot'⟩ := e
      obtain rfl : k = key := hk
      obtain rfl := Option.some.inj ((slot?_of_mem hc he).symm.trans h)
      rw [hf]
      rfl
    · rfl
  exact congrArg (fun slots => { c with slots }) hslots

namespace Op

/-- What `Op.passivate` of a ready session comes to, where `written time state'` is the answer of
`Store.passivate`. -/
inductive Departed (s : Surroundings σ ι ω) (key : Key) (state : σ)
    (written : Instant → σ → Except CacheError Unit) (x : Scene σ ι ω) :
    Except CacheError Unit → Scene σ ι ω → Prop where
  /-- The record was written, and `.postPassivate` succeeded. -/
  | stored {state' : σ} {value : Json.Value} {time : Instant} {o : ω}
      (ht : s.Turns .prePassivate key state state') (hv : s.codec.encode state' = .ok value)
      (hw : written time state' = .ok ())
      (ho : s.Story [⟨.prePassivate, key, false⟩, ⟨.postPassivate, key, false⟩] x.outside o) :
      Departed s key state written x (.ok ())
        { x with
          cache := (x.cache.unlink key).countPassivated
          contents := Function.update x.contents key (some (Envelope.encode key time value))
          outside := o }
  /-- The write failed, and `.postActivate` made `state''` of the state. -/
  | kept {state' state'' : σ} {failure : CacheError} {time : Instant} {o : ω}
      (ht : s.Turns .prePassivate key state state')
      (ht' : s.Turns .postActivate key state' state'') (hw : written time state' = .error failure)
      (ho : s.Story [⟨.prePassivate, key, false⟩, ⟨.postActivate, key, false⟩] x.outside o) :
      Departed s key state written x (.error failure)
        { x with
          cache := (x.cache.update key (·.toKept state'')).countFailure
          outside := o }
  /-- `.prePassivate` failed: the session is lost. -/
  | lostFirst {message : String} {contents : Key → Option ByteArray} {o : ω}
      (hc : x.Discards key contents) (ho : s.Story [⟨.prePassivate, key, true⟩] x.outside o) :
      Departed s key state written x (.error (.lifecycle key .prePassivate message))
        { x with cache := (x.cache.unlink key).countRemoved, contents, outside := o }
  /-- The write failed, and then `.postActivate`: the session is lost. -/
  | lostBack {state' : σ} {failure : CacheError} {time : Instant} {message : String}
      {contents : Key → Option ByteArray} {o : ω} (ht : s.Turns .prePassivate key state state')
      (hw : written time state' = .error failure) (hc : x.Discards key contents)
      (ho : s.Story [⟨.prePassivate, key, false⟩, ⟨.postActivate, key, true⟩] x.outside o) :
      Departed s key state written x (.error (.lifecycle key .postActivate message))
        { x with
          cache := (x.cache.unlink key).countFailure.countRemoved, contents, outside := o }
  /-- The record was written, and `.postPassivate` failed: the session is lost. -/
  | lostLast {state' : σ} {value : Json.Value} {time : Instant} {message : String}
      {contents : Key → Option ByteArray} {o : ω} (ht : s.Turns .prePassivate key state state')
      (hv : s.codec.encode state' = .ok value) (hw : written time state' = .ok ())
      (hc : { x with
        contents := Function.update x.contents key
          (some (Envelope.encode key time value)) : Scene σ ι ω }.Discards key contents)
      (ho : s.Story [⟨.prePassivate, key, false⟩, ⟨.postPassivate, key, true⟩] x.outside o) :
      Departed s key state written x (.error (.lifecycle key .postPassivate message))
        { x with
          cache := (x.cache.unlink key).countPassivated.countRemoved, contents, outside := o }

/-! ## How passivation ends -/

/-- `forceRemove` of a session that was taken out of its slot, followed by the error `failure`. -/
theorem exec_giveUp {c : Cache σ} (hc : w.cache = takeOut key c) {failure : CacheError}
    {r : Except CacheError Unit} (h : exec (do forceRemove key; throw failure) w = (r, w'))
    (d : Desk σ ι) :
    r = .error failure ∧ (w.scene d).Discards key w'.store.contents ∧
      w'.scene d =
        { w.scene d with
          cache := (c.unlink key).countRemoved, contents := w'.store.contents } := by
  obtain ⟨rfl, hd⟩ := exec_then_throw (fun h => (exec_forceRemove h d).1) h
  obtain ⟨-, hdiscards, hscene⟩ := exec_forceRemove hd d
  rw [hc, unlink_takeOut] at hscene
  exact ⟨rfl, hdiscards, hscene⟩

section

variable {c : Cache σ} {m : Key → Option ByteArray} {o : ω} {state' : σ} {time : Instant}
  {written : Instant → σ → Except CacheError Unit} {r : Except CacheError Unit}

/-- `Op.takeBack` is `Departed`: `.kept` or `.lostBack`. -/
theorem exec_takeBack_departed (hs : s.Discreet) {failure : CacheError}
    (hc : w.cache = takeOut key c) (ht : s.Turns .prePassivate key state state')
    (hw : written time state' = .error failure)
    (hfires : s.Fires ⟨.prePassivate, key, false⟩ o w.outside)
    (h : exec (takeBack s key state' failure) w = (r, w')) :
    w.now.Passes w'.now ∧ Departed s key state written
      { w.scene d with cache := c, now := w'.now, outside := o } r (w'.scene d) := by
  rw [takeBack, exec_bind_ok (exec_modifyCounters _ _), hc] at h
  obtain ⟨r₁, w₁, hf, h⟩ := exec_attempt_bind h
  obtain ⟨haside, ⟨message, rfl, hundo⟩ | ⟨after, rfl, hundo, ht'⟩⟩ := exec_fire hs hf
  · obtain ⟨rfl, hdiscards, hscene⟩ := exec_giveUp (c := c.countFailure) haside.cache h d
    rw [World.scene_aside haside d] at hdiscards hscene
    have hnow : w'.now = w₁.now := congrArg Scene.now hscene
    rw [hscene, hnow]
    exact ⟨haside.passes, .lostBack ht hw hdiscards (.two hfires hundo)⟩
  · cases h
    have hcache : w₁.cache.update key (·.toKept (after.getD state')) =
        (c.update key (·.toKept (after.getD state'))).countFailure := by
      rw [haside.cache]
      exact update_takeOut c.countFailure fun _ => rfl
    let w₂ : World σ ω := { w₁ with cache := w₁.cache.update key (·.toKept (after.getD state')) }
    have hscene := World.scene_congr (show w₂.cache = _ from hcache)
      (show w₂.store = w.store from haside.store) d
    refine ⟨haside.passes, ?_⟩
    change Departed _ _ _ _ { w.scene d with cache := c, now := w₁.now, outside := o } _ (w₂.scene d)
    rw [hscene]
    exact .kept ht (ht' state' rfl) hw (.two hfires hundo)

/-- `Op.moveOut` is `Departed`: `.stored` or `.lostLast`. -/
theorem exec_moveOut_departed (hs : s.Discreet) {value : Json.Value}
    (hc : w.cache = takeOut key c) (ht : s.Turns .prePassivate key state state')
    (hv : s.codec.encode state' = .ok value) (hw : written time state' = .ok ())
    (hm : w.store.contents = Function.update m key (some (Envelope.encode key time value)))
    (hfires : s.Fires ⟨.prePassivate, key, false⟩ o w.outside)
    (h : exec (moveOut s key) w = (r, w')) :
    w.now.Passes w'.now ∧ Departed s key state written
      { w.scene d with cache := c, contents := m, now := w'.now, outside := o } r (w'.scene d) := by
  rw [moveOut, exec_bind_ok (exec_unlink _ _), exec_bind_ok (exec_modifyCounters _ _), hc,
    unlink_takeOut] at h
  obtain ⟨r₁, w₁, hf, h⟩ := exec_attempt_bind h
  obtain ⟨haside, ⟨message, rfl, hlast⟩ | ⟨after, rfl, hlast, -⟩⟩ := exec_fire hs hf
  · obtain ⟨rfl, hd⟩ := exec_then_throw (fun h => (exec_discardRecord h d).1) h
    obtain ⟨-, hdiscards, hscene⟩ := exec_discardRecord hd d
    rw [World.scene_aside haside d] at hdiscards hscene
    rw [haside.cache] at hscene
    have hnow : w'.now = w₁.now := congrArg Scene.now hscene
    rw [hscene, hnow]
    refine ⟨haside.passes, .lostLast ht hv hw ?_ (.two hfires hlast)⟩
    rw [← hm]
    exact hdiscards
  · obtain ⟨rfl, rfl⟩ : r = .ok () ∧ w' = w₁ := by
      cases h
      exact ⟨rfl, rfl⟩
    refine ⟨haside.passes, ?_⟩
    rw [World.scene_aside haside d]
    have hstored := Departed.stored (s := s) (x := { w.scene d with
      cache := c, contents := m, now := w'.now, outside := o }) ht hv hw (.two hfires hlast)
    rw [← hm] at hstored
    exact hstored

end

/-- `Op.passivate` of a ready session is `Departed`. -/
theorem exec_departed (hs : s.Discreet) (hslot : w.cache.slot? key = some slot)
    (hr : slot.IsReady state) {r : Except CacheError Unit}
    (h : exec (passivate s key) w = (r, w')) (d : Desk σ ι) :
    w.now.Passes w'.now ∧ Departed s key state (w.store.writing s.codec key)
      { w.scene d with now := w'.now } r (w'.scene d) := by
  obtain ⟨r₁, w₁, hf, h⟩ := exec_passivate_ready hslot hr h
  obtain ⟨haside, ⟨message, rfl, hfires⟩ | ⟨after, rfl, hfires, hturns⟩⟩ := exec_fire hs hf
  · obtain ⟨rfl, hdiscards, hscene⟩ := exec_giveUp (c := w.cache) haside.cache h d
    rw [World.scene_aside haside d] at hdiscards hscene
    have hnow : w'.now = w₁.now := congrArg Scene.now hscene
    rw [hscene, hnow]
    exact ⟨haside.passes, .lostFirst hdiscards (.one hfires)⟩
  · obtain ⟨r₂, w₂, hp, h⟩ := h
    have hstore : w₁.store = w.store := haside.store
    have hw : w.store.writing s.codec key w₁.now (after.getD state) = r₂ := by
      rw [exec_onStore, hstore] at hp
      exact congrArg Prod.fst hp
    obtain ⟨store, rfl, hgate, ⟨value, rfl, hv, hm⟩ | ⟨failure, rfl, -, hm⟩⟩ := exec_putRecord hp
    · rw [hstore] at hm
      have hscene : ({ w₁ with store } : World σ ω).scene d =
          { w₁.scene d with contents := store.contents } := World.scene_store hgate d
      obtain ⟨hpasses, hdeparted⟩ := exec_moveOut_departed (w := { w₁ with store }) (d := d)
        (o := w.outside) hs haside.cache (hturns state rfl) hv hw hm hfires h
      rw [hscene, World.scene_aside haside d] at hdeparted
      exact ⟨haside.passes.trans hpasses, hdeparted⟩
    · have hscene : ({ w₁ with store } : World σ ω).scene d = w₁.scene d :=
        (World.scene_store hgate d).trans (by rw [hm]; rfl)
      obtain ⟨hpasses, hdeparted⟩ := exec_takeBack_departed (w := { w₁ with store }) (d := d)
        (o := w.outside) hs haside.cache (hturns state rfl) hw hfires h
      rw [hscene, World.scene_aside haside d] at hdeparted
      exact ⟨haside.passes.trans hpasses, hdeparted⟩

/-! ## What becomes of the session, and of others -/

namespace Departed

variable {written : Instant → σ → Except CacheError Unit} {x x' : Scene σ ι ω}
  {r : Except CacheError Unit}

/-- `Departed` keeps the slots and the records of other keys. -/
theorem spares (h : Departed s key state written x r x') (hne : key ≠ k) :
    x'.cache.slot? k = x.cache.slot? k ∧ x'.contents k = x.contents k := by
  cases h with
  | stored => exact ⟨Cache.unlink_other _ hne, Function.update_of_ne (Ne.symm hne) _ _⟩
  | @kept _ state'' => exact ⟨Cache.update_other _ hne (·.toKept state''), rfl⟩
  | lostFirst hc | lostBack _ _ hc => exact ⟨Cache.unlink_other _ hne, hc.other hne⟩
  | lostLast _ _ _ hc =>
    exact ⟨Cache.unlink_other _ hne, (hc.other hne).trans (Function.update_of_ne (Ne.symm hne) _ _)⟩

/-- `key` has no slot afterwards, or its slot differs in the state alone. -/
theorem at_key (h : Departed s key state written x r x') (hslot : x.cache.slot? key = some slot) :
    x'.cache.slot? key = none ∨
      x'.contents = x.contents ∧ ∃ state', x'.cache.slot? key = some (slot.toKept state') := by
  cases h with
  | stored | lostFirst | lostBack | lostLast => exact .inl (Cache.unlink_self _ _)
  | @kept _ state'' => exact .inr ⟨rfl, state'', Cache.update_self hslot (·.toKept state'')⟩

/-- A failed callback in the answer is one for `key`. -/
theorem lifecycle_key (h : Departed s key state written x r x')
    (hw : ∀ time state' failure, written time state' = .error failure →
      ∀ k phase message, failure ≠ .lifecycle k phase message)
    {phase : Phase} {message : String} (hr : r = .error (.lifecycle k phase message)) : k = key := by
  cases h with
  | stored => exact nomatch hr
  | kept _ _ hf => exact absurd (Except.error.inj hr) (hw _ _ _ hf k phase message)
  | lostFirst | lostBack | lostLast => cases hr; rfl

/-- If the answer is `.ok`, the slot of `key` is unlinked and `passivated` counted. -/
theorem cache_of_ok (h : Departed s key state written x r x') (hr : r = .ok ()) :
    x'.cache = (x.cache.unlink key).countPassivated := by
  cases h with
  | stored => rfl
  | kept | lostFirst | lostBack | lostLast => exact nomatch hr

end Departed

end Op

end SessionCache
