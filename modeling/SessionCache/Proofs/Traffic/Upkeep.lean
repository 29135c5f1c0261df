import SessionCache.Proofs.Traffic.Sound

/-!
# What operations do to other sessions

The pieces of operations that concern sessions which nobody asked about: a session is passivated to
make room, or because it was idle for too long. Each is a path of shifts.

* **Incidents** (`Incident`): what may become of a session by the way. Callbacks run for it, and it
  may be lost by one that fails; the failure of a callback is always the end of its session.
* `exec_passivate_ready`: what the passivation of a ready session goes through.
* `exec_passivate`: a ready session gets to the store, or stays where it was, or is lost (`Parted`).
* `exec_look_cases`, `exec_sweepIdle`, `exec_passivateAll`: a look for room passivates one session at
  most, and a sweep passivates ready sessions one after the other (`Parade`).
* `exec_look`, `exec_sweep`, `exec_expirePassivated`: what these do is an incident.
-/

namespace SessionCache

variable {σ ι ω α : Type} {s : Surroundings σ ι ω} {d : Desk σ ι} {w w' : World σ ω} {key : Key}
  {slot : Slot σ} {state : σ}

/-! ## Scenes of worlds -/

namespace World

theorem scene_aside (h : Aside w w') (d : Desk σ ι) :
    w'.scene d = { w.scene d with now := w'.now, outside := w'.outside } := by
  simp only [scene, h.cache, h.store]

theorem scene_congr {c : Cache σ} (hc : w'.cache = c) (hs : w'.store = w.store) (d : Desk σ ι) :
    w'.scene d = { w.scene d with cache := c, now := w'.now, outside := w'.outside } := by
  simp only [scene, hc, hs]

theorem scene_store {store : Store} (h : Store.SameGate w.store store) (d : Desk σ ι) :
    ({ w with store } : World σ ω).scene d = { w.scene d with contents := store.contents } := by
  simp only [scene, h.fault]

end World

/-- The clock can go on from `t` to `t'`. -/
def Instant.Passes (t t' : Instant) : Prop := t ≤ t' ∧ (t ≤ .latest → t' ≤ .latest)

theorem Instant.Passes.trans {t t' t'' : Instant} (h : t.Passes t') (h' : t'.Passes t'') :
    t.Passes t'' := ⟨Int.le_trans h.1 h'.1, fun hc => h'.2 (h.2 hc)⟩

theorem Instant.Passes.path {t t' : Instant} (h : t.Passes t') {x : Scene σ ι ω} (hx : x.now = t) :
    Path s x [] { x with now := t' } :=
  .one (.pass (hx ▸ h.1) (hx ▸ h.2))

theorem Aside.passes (h : Aside w w') : w.now.Passes w'.now := ⟨h.now, h.calendar⟩

theorem Aside.path (h : Aside w w') {x : Scene σ ι ω} (hx : x.now = w.now) :
    Path s x [] { x with now := w'.now } := h.passes.path hx

namespace Op

/-! ## Records of lost sessions -/

theorem exec_removeRecord {r : Except CacheError Bool}
    (h : exec (onStore (Store.remove key)) w = (r, w')) (d : Desk σ ι) :
    w'.scene d = { w.scene d with contents := w'.store.contents } ∧
      ((∃ found, r = .ok found ∧ w'.store.contents = Function.update w.store.contents key none ∧
          found = (w.store.contents key).isSome) ∨
        ∃ e, r = .error (.store e) ∧ w'.store.contents = w.store.contents ∧
          (w.store.contents key ≠ none → ∃ n, w.store.fault n (.delete key) ≠ none)) := by
  rw [exec_onStore] at h
  rcases hr : exec (Store.remove key) w.store with ⟨r₁, store⟩
  obtain ⟨hgate, hcases⟩ := Store.exec_remove hr
  rw [hr] at h
  cases h
  refine ⟨World.scene_store hgate d, ?_⟩
  obtain h₁ | ⟨e, he, hc, hf⟩ := hcases
  · exact .inl h₁
  · exact .inr ⟨e, he, hc, fun hn => ⟨_, hf hn⟩⟩

theorem exec_discardRecord {r : Except CacheError Unit} (h : exec (discardRecord key) w = (r, w'))
    (d : Desk σ ι) :
    r = .ok () ∧ (w.scene d).Discards key w'.store.contents ∧
      w'.scene d =
        { w.scene d with cache := w.cache.countRemoved, contents := w'.store.contents } := by
  rw [discardRecord, exec_bind, exec_attempt] at h
  rcases hr : exec (onStore (Store.remove key)) w with ⟨r₁, w₁⟩
  obtain ⟨hscene, hcases⟩ := exec_removeRecord hr d
  rw [hr] at h
  cases h
  refine ⟨rfl, ?_, ?_⟩
  · obtain ⟨found, -, hc, -⟩ | ⟨e, -, hc, hf⟩ := hcases
    · exact .inl hc
    · exact .inr ⟨hc, hf⟩
  · have hcache : w₁.cache = w.cache := congrArg Scene.cache hscene
    have hrest : ({ w₁ with cache := w.cache.countRemoved } : World σ ω).scene d =
        { w₁.scene d with cache := w.cache.countRemoved } := rfl
    rw [← hcache] at hrest ⊢
    exact hrest.trans (by rw [hscene])

theorem exec_forceRemove {r : Except CacheError Unit} (h : exec (forceRemove key) w = (r, w'))
    (d : Desk σ ι) :
    r = .ok () ∧ (w.scene d).Discards key w'.store.contents ∧
      w'.scene d =
        { w.scene d with
          cache := (w.cache.unlink key).countRemoved, contents := w'.store.contents } := by
  rw [forceRemove, exec_bind, exec_unlink] at h
  exact exec_discardRecord h d

theorem exec_then_throw {op : Op σ ω Unit} {failure : CacheError} {r : Except CacheError α}
    (hop : ∀ {r w'}, exec op w = (r, w') → r = .ok ())
    (h : exec (do op; throw failure) w = (r, w')) :
    r = .error failure ∧ exec op w = (.ok (), w') := by
  obtain ⟨_, w₁, hd, h⟩ | ⟨e, hd, -⟩ := exec_bind_cases h
  · cases h
    exact ⟨rfl, hd⟩
  · exact nomatch hop hd

end Op

/-! ## Incidents -/

/-- The deeds that may concern a session of which the operation was not about: firings, and its
loss. -/
def Deed.Incidental : Deed σ → Prop
  | .fired _ | .lost _ => True
  | _ => False

/-- An operation that answered `r` led from `x` to `x'` by incidental deeds alone; a failed callback
in `r` goes with the deed `lost key`. -/
def Incident (s : Surroundings σ ι ω) (x : Scene σ ι ω) (r : Except CacheError α)
    (x' : Scene σ ι ω) : Prop :=
  ∃ ds, Path s x ds x' ∧ (∀ e ∈ ds, e.Incidental) ∧
    ∀ key phase message, r = .error (.lifecycle key phase message) → .lost key ∈ ds

theorem Incident.after {x y z : Scene σ ι ω} {ds : List (Deed σ)} {r : Except CacheError α}
    (h : Incident s y r z) (hp : Path s x ds y) (hd : ∀ e ∈ ds, e.Incidental) :
    Incident s x r z := by
  obtain ⟨ds', hp', hd', hr⟩ := h
  refine ⟨ds ++ ds', hp.trans hp', fun e he => ?_, fun key phase message he => ?_⟩
  · exact (List.mem_append.mp he).elim (hd e) (hd' e)
  · exact List.mem_append_right _ (hr key phase message he)

theorem Incident.refl (x : Scene σ ι ω) {r : Except CacheError α}
    (hr : ∀ key phase message, r ≠ .error (.lifecycle key phase message)) : Incident s x r x :=
  ⟨[], .nil, by simp, fun key phase message h => absurd h (hr key phase message)⟩

theorem Incident.trans {x y z : Scene σ ι ω} {r : Except CacheError α} {β : Type}
    {r' : Except CacheError β} (h : Incident s x r y) (h' : Incident s y r' z) :
    Incident s x r' z := by
  obtain ⟨ds, hp, hd, -⟩ := h
  exact h'.after hp hd

theorem Incident.recast {x y : Scene σ ι ω} {e : CacheError} {β : Type}
    (h : Incident s x (.error e : Except CacheError α) y) :
    Incident s x (.error e : Except CacheError β) y := by
  obtain ⟨ds, hp, hd, hr⟩ := h
  exact ⟨ds, hp, hd, fun key phase message he => hr key phase message (congrArg _ (Except.error.inj he))⟩

/-- An `Incident` with the answer `r` is one with any answer `r'` that is no failed callback. -/
theorem Incident.answer {x y : Scene σ ι ω} {r : Except CacheError α} {β : Type}
    {r' : Except CacheError β} (h : Incident s x r y)
    (hr : ∀ key phase message, r' ≠ .error (.lifecycle key phase message)) :
    Incident s x r' y := h.trans (.refl y hr)

namespace Op

/-- The slot of `key` as callbacks find it: `held`, without its `payload`. -/
def takeOut (key : Key) (c : Cache σ) : Cache σ :=
  c.update key fun slot => { slot with payload := none, held := true }

theorem update_takeOut (c : Cache σ) {f g : Slot σ → Slot σ}
    (hf : ∀ slot : Slot σ, f { slot with payload := none, held := true } = g slot) :
    (takeOut key c).update key f = c.update key g := by
  rw [takeOut, Cache.update_update]
  exact congrArg _ (funext hf)

theorem unlink_takeOut (c : Cache σ) : (takeOut key c).unlink key = c.unlink key :=
  c.unlink_update key fun _ => rfl

/-- `forceRemove` of a session that was taken out, after the firings `fs` and a failed one: the
deeds end in `lost key`. -/
theorem forceRemove_path {c : Cache σ} {o : ω} {phase : Phase} (fs : List Firing)
    (hc : w.cache = takeOut key c) (hslot : c.slot? key = some slot) (hr : slot.IsReady state)
    (hf : ∀ f ∈ fs, f.key = key) (ho : s.Story (fs ++ [⟨phase, key, true⟩]) o w.outside)
    {r : Except CacheError Unit} (h : exec (forceRemove key) w = (r, w')) :
    r = .ok () ∧
      Path s { w.scene d with cache := c, outside := o }
        (fs.map .fired ++ [.fired ⟨phase, key, true⟩, .lost key]) (w'.scene d) := by
  obtain ⟨rfl, hdiscards, hscene⟩ := exec_forceRemove h d
  rw [hc, unlink_takeOut] at hscene
  rw [hscene]
  refine ⟨rfl, .one ?_⟩
  exact .lose (x := { w.scene d with cache := c, outside := o }) fs hslot hr hf hdiscards ho

/-- After `forceRemove key`, `key` has no slot. -/
theorem slot?_forceRemove {r : Except CacheError Unit} (h : exec (forceRemove key) w = (r, w')) :
    w'.cache.slot? key = none := by
  obtain ⟨-, -, hscene⟩ := exec_forceRemove h ({} : Desk σ Unit)
  rw [show w'.cache = (w.cache.unlink key).countRemoved from congrArg Scene.cache hscene]
  exact Cache.unlink_self _ _

/-! ## Passivation -/

/-- What `Op.passivate` of a ready session comes to, by its answer. -/
inductive Parted (s : Surroundings σ ι ω) (key : Key) (x : Scene σ ι ω) :
    Except CacheError Unit → List (Deed σ) → Scene σ ι ω → Prop where
  /-- `.ok`: the session has a record and no slot. -/
  | stored {y : Scene σ ι ω}
      (h : Path s x
        [.fired ⟨.prePassivate, key, false⟩, .fired ⟨.postPassivate, key, false⟩] y)
      (hs : y.cache.slot? key = none) (hr : y.contents key ≠ none) :
      Parted s key x (.ok ())
        [.fired ⟨.prePassivate, key, false⟩, .fired ⟨.postPassivate, key, false⟩] y
  /-- The write failed: the session is ready, with what `.postActivate` made of its state. -/
  | kept {y : Scene σ ι ω} {failure : CacheError} {slot : Slot σ} {state : σ}
      (h : Path s x [.fired ⟨.prePassivate, key, false⟩, .fired ⟨.postActivate, key, false⟩] y)
      (hs : y.cache.slot? key = some slot) (hr : slot.IsReady state)
      (hf : ∀ k phase message, failure ≠ .lifecycle k phase message) :
      Parted s key x (.error failure)
        [.fired ⟨.prePassivate, key, false⟩, .fired ⟨.postActivate, key, false⟩] y
  /-- A callback failed, the first or a later one: the session is lost. -/
  | lost {y : Scene σ ι ω} {phase : Phase} {message : String} (fs : List Firing)
      (hf : ∀ f ∈ fs, f.key = key ∧ f.failed = false)
      (h : Path s x (fs.map .fired ++ [.fired ⟨phase, key, true⟩, .lost key]) y)
      (hs : y.cache.slot? key = none) :
      Parted s key x (.error (.lifecycle key phase message))
        (fs.map .fired ++ [.fired ⟨phase, key, true⟩, .lost key]) y

namespace Parted

variable {x y z : Scene σ ι ω} {r : Except CacheError Unit} {ds : List (Deed σ)}

theorem path (h : Parted s key x r ds y) : Path s x ds y := by
  cases h <;> assumption

theorem after (h : Parted s key y r ds z) (hp : Path s x [] y) : Parted s key x r ds z := by
  cases h with
  | stored h hs hr => exact .stored (hp.quietly h) hs hr
  | kept h hs hr hf => exact .kept (hp.quietly h) hs hr hf
  | lost fs hf h hs => exact .lost fs hf (hp.quietly h) hs

/-- The deeds of `Parted` are firings for `key`, and `lost key`. -/
theorem about_key (h : Parted s key x r ds y) :
    ∀ e ∈ ds, e = .lost key ∨ ∃ f : Firing, f.key = key ∧ e = .fired f := by
  intro e he
  cases h with
  | stored | kept =>
    obtain rfl | rfl := List.mem_pair.mp he <;> exact .inr ⟨_, rfl, rfl⟩
  | lost fs hf =>
    obtain he | he := List.mem_append.mp he
    · obtain ⟨f, hmem, rfl⟩ := List.mem_map.mp he
      exact .inr ⟨f, (hf f hmem).1, rfl⟩
    · obtain rfl | rfl := List.mem_pair.mp he
      · exact .inr ⟨_, rfl, rfl⟩
      · exact .inl rfl

theorem incident (h : Parted s key x r ds y) : Incident s x r y := by
  refine ⟨ds, h.path, fun e he => ?_, ?_⟩
  · obtain rfl | ⟨f, -, rfl⟩ := h.about_key e he <;> trivial
  · intro k phase message hr
    cases h with
    | stored => exact nomatch hr
    | kept _ _ _ hf => exact absurd (Except.error.inj hr) (hf k phase message)
    | lost => cases hr; simp

end Parted

/-- `s'` has the codec of `s` and the same callbacks in every phase but `.postPassivate`. -/
structure Alike (s s' : Surroundings σ ι ω) : Prop where
  codec : s'.codec = s.codec
  fire : ∀ phase key state, phase ≠ .postPassivate →
    s'.lifecycle.fire phase key state = s.lifecycle.fire phase key state

theorem Alike.refl (s : Surroundings σ ι ω) : Alike s s := ⟨rfl, fun _ _ _ _ => rfl⟩

/-- `Op.seeOff` fires `.postPassivate` for a key with a record and no slot: it succeeds, or the
session is lost. -/
theorem exec_seeOff (hs : s.Discreet) (hslot : w.cache.slot? key = none)
    (hr : w.store.contents key ≠ none) {r : Except CacheError Unit}
    (h : exec (seeOff s key) w = (r, w')) :
    w'.cache.slot? key = none ∧
      (r = .ok () ∧ w'.store = w.store ∧
          Path s (w.scene d) [.fired ⟨.postPassivate, key, false⟩] (w'.scene d) ∨
        ∃ message, r = .error (.lifecycle key .postPassivate message) ∧
          Path s (w.scene d) [.fired ⟨.postPassivate, key, true⟩, .lost key] (w'.scene d)) := by
  obtain ⟨r₁, w₁, hf, h⟩ := exec_attempt_bind h
  obtain ⟨haside, ⟨message, rfl, hfires⟩ | ⟨after, rfl, hfires, -⟩⟩ := exec_fire hs hf
  · obtain ⟨rfl, hd⟩ := exec_then_throw (fun h => (exec_discardRecord h d).1) h
    obtain ⟨-, hdiscards, hlost⟩ := exec_discardRecord hd d
    rw [World.scene_aside haside d] at hdiscards hlost
    rw [haside.cache] at hlost
    have hcache : w'.cache = w.cache.countRemoved := congrArg Scene.cache hlost
    refine ⟨hcache ▸ hslot, .inr ⟨message, rfl, ?_⟩⟩
    rw [hlost]
    exact Path.trans (haside.path rfl) (.one (.loseParked hslot hr hdiscards (.one hfires)))
  · cases h
    refine ⟨haside.cache ▸ hslot, .inl ⟨rfl, haside.store, ?_⟩⟩
    rw [World.scene_aside haside d]
    refine Path.trans (haside.path rfl)
      (.one (.attend [⟨.postPassivate, key, false⟩] ?_ (.one hfires)))
    simpa using .inl ⟨hslot, hr⟩

/-- `Op.moveOut` after the record was written, up to `Op.seeOff`. -/
theorem exec_moveOut {s' : Surroundings σ ι ω} {c : Cache σ} {m : Key → Option ByteArray} {o : ω}
    {state' : σ} {value : Json.Value} (hc : w.cache = takeOut key c)
    (hm : w.store.contents = Function.update m key (some (Envelope.encode key w.now value)))
    (hslot : c.slot? key = some slot) (hr : slot.IsReady state)
    (hturns : s.Turns .prePassivate key state state') (hv : s.codec.encode state' = .ok value)
    (hfires : s.Fires ⟨.prePassivate, key, false⟩ o w.outside)
    {r : Except CacheError Unit} (h : exec (moveOut s' key) w = (r, w')) :
    ∃ w₁, w₁.cache.slot? key = none ∧
      w₁.store.contents key = some (Envelope.encode key w.now value) ∧
      Path s { w.scene d with cache := c, contents := m, outside := o }
        [.fired ⟨.prePassivate, key, false⟩] (w₁.scene d) ∧
      exec (seeOff s' key) w₁ = (r, w') := by
  rw [moveOut, exec_bind_ok (exec_unlink _ _), exec_bind_ok (exec_modifyCounters _ _), hc,
    unlink_takeOut] at h
  have hpark : Shift s { w.scene d with cache := c, contents := m, outside := o }
      [.fired ⟨.prePassivate, key, false⟩]
      { w.scene d with
        cache := c.unlink key
        contents := Function.update m key (some (Envelope.encode key w.now value)) } :=
    .park (x := { w.scene d with cache := c, contents := m, outside := o }) hslot hr hturns hv
      (.one hfires)
  rw [← hm] at hpark
  have hrecord : w.store.contents key = some (Envelope.encode key w.now value) := by
    rw [hm, Function.update_self]
  refine ⟨{ w with cache := (c.unlink key).countPassivated, signals := w.signals + 1 },
    Cache.unlink_self c key, hrecord, ?_, h⟩
  exact (Path.one hpark).still (.one (.count (c.unlink key).countPassivated.counters rfl))

/-- `Op.takeBack` after the write failed: the session is ready again, or lost. -/
theorem exec_takeBack {s' : Surroundings σ ι ω} (hs : s.Discreet) (halike : Alike s s') {c : Cache σ}
    {o : ω} {state' : σ} {failure : CacheError}
    (hc : w.cache = takeOut key c) (hslot : c.slot? key = some slot) (hr : slot.IsReady state)
    (hturns : s.Turns .prePassivate key state state')
    (hfires : s.Fires ⟨.prePassivate, key, false⟩ o w.outside)
    (hfailure : ∀ k phase message, failure ≠ .lifecycle k phase message)
    {r : Except CacheError Unit} (h : exec (takeBack s' key state' failure) w = (r, w')) :
    (∃ ds, Parted s key { w.scene d with cache := c, outside := o } r ds (w'.scene d)) ∧
      ∀ message, r ≠ .error (.lifecycle key .postPassivate message) := by
  rw [takeBack, exec_bind_ok (exec_modifyCounters _ _), hc] at h
  obtain ⟨r₁, w₁, hf, h⟩ := exec_attempt_bind h
  rw [halike.fire .postActivate _ _ nofun] at hf
  obtain ⟨haside, ⟨message, rfl, hundo⟩ | ⟨after, rfl, hundo, hturns'⟩⟩ := exec_fire hs hf
  · obtain ⟨rfl, hd⟩ := exec_then_throw (fun h => (exec_forceRemove h d).1) h
    obtain ⟨-, hlose⟩ := forceRemove_path (d := d) (c := c.countFailure) (o := o)
      [⟨.prePassivate, key, false⟩] haside.cache hslot hr (by simp) (.two hfires hundo) hd
    rw [World.scene_aside haside d] at hlose
    exact ⟨⟨_, .lost [⟨.prePassivate, key, false⟩] (by simp)
      (((Path.one (.count c.countFailure.counters rfl)).trans (haside.path rfl)).trans hlose)
      (slot?_forceRemove hd)⟩, nofun⟩
  · cases h
    have hcache : w₁.cache.update key (·.toKept (after.getD state')) =
        c.countFailure.update key (·.toKept (after.getD state')) := by
      rw [haside.cache]
      exact update_takeOut c.countFailure fun _ => rfl
    let w₂ : World σ ω := { w₁ with cache := w₁.cache.update key (·.toKept (after.getD state')) }
    have hscene := World.scene_congr (show w₂.cache = _ from hcache)
      (show w₂.store = w.store from haside.store) d
    have hkept : (c.countFailure.update key (·.toKept (after.getD state'))).slot? key =
        some (slot.toKept (after.getD state')) :=
      Cache.update_self (c := c.countFailure) hslot (·.toKept (after.getD state'))
    refine ⟨⟨[.fired ⟨.prePassivate, key, false⟩, .fired ⟨.postActivate, key, false⟩], ?_⟩,
      fun message he => hfailure key _ message (Except.error.inj he)⟩
    change Parted s key _ _ _ (w₂.scene d)
    rw [hscene]
    refine .kept ?_ hkept (hr.toKept _) hfailure
    exact ((Path.one (.count c.countFailure.counters rfl)).trans (haside.path rfl)).trans (.one
      (.stay hslot hr hturns (hturns' state' rfl) (.two hfires hundo)))

/-- `Op.passivate` of a ready session, step by step: `.prePassivate` runs while the state is out of
its slot; if it fails, `forceRemove`; else `Store.passivate` writes the record, and `moveOut` or
`takeBack` follows. -/
theorem exec_passivate_ready (hslot : w.cache.slot? key = some slot) (hr : slot.IsReady state)
    {r : Except CacheError Unit} (h : exec (passivate s key) w = (r, w')) :
    ∃ fired w₁, exec (s.lifecycle.fire .prePassivate key (some state))
        { w with cache := takeOut key w.cache } = (fired, w₁) ∧
      match fired with
      | .error failure => exec (do forceRemove key; throw failure : Op σ ω Unit) w₁ = (r, w')
      | .ok after => ∃ answer w₂,
          exec (onStore (Store.passivate s.codec w₁.now key (after.getD state))) w₁ = (answer, w₂) ∧
          match answer with
          | .error failure => exec (takeBack s key (after.getD state) failure) w₂ = (r, w')
          | .ok () => exec (moveOut s key) w₂ = (r, w') := by
  rw [passivate, exec_bind_ok (exec_cache _), hslot] at h
  dsimp only at h
  rw [exec_bind_ok (exec_step (by rw [hr.stage]; rfl) w), hr.payload] at h
  dsimp only at h
  rw [exec_bind_ok (exec_modifyCache _ _)] at h
  obtain ⟨fired, w₁, hfire, h⟩ := exec_attempt_bind h
  refine ⟨fired, w₁, hfire, ?_⟩
  cases fired with
  | error failure => exact h
  | ok after =>
    dsimp only at h
    rw [exec_bind_ok (exec_now _)] at h
    obtain ⟨answer, w₂, hput, h⟩ := exec_attempt_bind h
    refine ⟨answer, w₂, hput, ?_⟩
    cases answer <;> exact h

theorem exec_putRecord {codec : Codec σ} {now : Instant} {r : Except CacheError Unit}
    (h : exec (onStore (Store.passivate codec now key state)) w = (r, w')) :
    ∃ store, w' = { w with store } ∧ Store.SameGate w.store store ∧
      ((∃ value, r = .ok () ∧ codec.encode state = .ok value ∧
          store.contents =
            Function.update w.store.contents key (some (Envelope.encode key now value))) ∨
        ∃ failure, r = .error failure ∧ (∀ k phase message, failure ≠ .lifecycle k phase message) ∧
          store.contents = w.store.contents) := by
  rw [exec_onStore] at h
  rcases hp : exec (Store.passivate codec now key state) w.store with ⟨r₁, store⟩
  obtain ⟨hgate, hcases⟩ := Store.exec_passivate hp
  rw [hp] at h
  cases h
  refine ⟨store, rfl, hgate, ?_⟩
  obtain ⟨value, rfl, hv, hc⟩ | ⟨message, rfl, -, rfl⟩ | ⟨e, rfl, hc⟩ := hcases
  · exact .inl ⟨value, rfl, hv, hc⟩
  · exact .inr ⟨_, rfl, nofun, rfl⟩
  · exact .inr ⟨_, rfl, nofun, hc⟩

/-- `Op.passivate` of a ready session: `Parted`, or its record was written and `Op.seeOff` is still
to run. -/
theorem exec_passivate_cases {s' : Surroundings σ ι ω} (hs : s.Discreet) (halike : Alike s s')
    (hslot : w.cache.slot? key = some slot) (hr : slot.IsReady state) {r : Except CacheError Unit}
    (h : exec (passivate s' key) w = (r, w')) :
    ((∃ ds, Parted s key (w.scene d) r ds (w'.scene d)) ∧
        ∀ message, r ≠ .error (.lifecycle key .postPassivate message)) ∨
      ∃ w₁ bytes, w₁.cache.slot? key = none ∧ w₁.store.contents key = some bytes ∧
        Path s (w.scene d) [.fired ⟨.prePassivate, key, false⟩] (w₁.scene d) ∧
        exec (seeOff s' key) w₁ = (r, w') := by
  obtain ⟨r₁, w₁, hf, h⟩ := exec_passivate_ready hslot hr h
  rw [halike.fire .prePassivate _ _ nofun] at hf
  obtain ⟨haside, ⟨message, rfl, hfires⟩ | ⟨after, rfl, hfires, hturns⟩⟩ := exec_fire hs hf
  · obtain ⟨rfl, hd⟩ := exec_then_throw (fun h => (exec_forceRemove h d).1) h
    obtain ⟨-, hlose⟩ := forceRemove_path (d := d) (c := w.cache) (o := w.outside) []
      haside.cache hslot hr (by simp) (.one hfires) hd
    rw [World.scene_aside haside d] at hlose
    exact .inl ⟨⟨_, .lost [] (by simp) (Path.quietly (haside.path rfl) hlose)
      (slot?_forceRemove hd)⟩, nofun⟩
  · obtain ⟨r₂, w₂, hp, h⟩ := h
    rw [halike.codec] at hp
    obtain ⟨store, rfl, hgate, ⟨value, rfl, hv, hm⟩ | ⟨failure, rfl, hfailure, hm⟩⟩ := exec_putRecord hp
    · have hscene : ({ w₁ with store } : World σ ω).scene d =
          { w₁.scene d with contents := store.contents } := World.scene_store hgate d
      rw [haside.store] at hm
      obtain ⟨w₃, hnone, hrecord, hmove, hlast⟩ := exec_moveOut (w := { w₁ with store }) (d := d)
        (o := w.outside) haside.cache hm hslot hr (hturns state rfl) hv hfires h
      rw [hscene, World.scene_aside haside d] at hmove
      exact .inr ⟨w₃, _, hnone, hrecord, Path.quietly (haside.path rfl) hmove, hlast⟩
    · have hscene : ({ w₁ with store } : World σ ω).scene d = w₁.scene d :=
        (World.scene_store hgate d).trans (by rw [hm]; rfl)
      obtain ⟨⟨ds, hback⟩, hne⟩ := exec_takeBack (w := { w₁ with store }) (d := d) (o := w.outside) hs
        halike haside.cache hslot hr (hturns state rfl) hfires hfailure h
      rw [hscene, World.scene_aside haside d] at hback
      exact .inl ⟨⟨ds, hback.after (haside.path rfl)⟩, hne⟩

/-- `Op.passivate` of a ready session is `Parted`, by its answer. -/
theorem exec_passivate (hs : s.Discreet) (hslot : w.cache.slot? key = some slot)
    (hr : slot.IsReady state) {r : Except CacheError Unit}
    (h : exec (passivate s key) w = (r, w')) : ∃ ds, Parted s key (w.scene d) r ds (w'.scene d) := by
  obtain ⟨hparted, -⟩ | ⟨w₁, bytes, hnone, hrecord, hmove, hlast⟩ :=
    exec_passivate_cases (d := d) hs (.refl s) hslot hr h
  · exact hparted
  · have hthere : w₁.store.contents key ≠ none := hrecord.trans_ne (Option.some_ne_none _)
    obtain ⟨hgone, ⟨rfl, hstore, hpath⟩ | ⟨message, rfl, hpath⟩⟩ :=
      exec_seeOff (d := d) hs hnone hthere hlast
    · refine ⟨_, .stored (hmove.trans hpath) hgone ?_⟩
      change w'.store.contents key ≠ none
      rw [hstore]
      exact hthere
    · exact ⟨_, .lost [⟨.prePassivate, key, false⟩] (by simp) (hmove.trans hpath) hgone⟩

/-! ## Looking for room -/

/-- `evictionError` is an error of capacity, or the failed callback that was the `cause`. -/
theorem evictionError_cases (victim : Key) (cause : CacheError) :
    ((evictionError victim cause).isCapacity = true ∧
        ∀ k phase message, evictionError victim cause ≠ .lifecycle k phase message) ∨
      ∃ k phase message, cause = .lifecycle k phase message ∧ evictionError victim cause = cause := by
  cases cause with
  | lifecycle k phase message => exact .inr ⟨k, phase, message, rfl, rfl⟩
  | _ => exact .inl ⟨rfl, nofun⟩

/-- The error of `Op.look` without a unit of room and without a victim: `.allInUse` if `deadline` is
`.never`, `.waitedInVain` once it has come. -/
inductive GivesUp (settings : Settings) (now : Instant) : Deadline → CacheError → Prop where
  | atOnce : GivesUp settings now .never (.allInUse settings.maxSize)
  | inVain {limit : Instant} (h : limit ≤ now) :
      GivesUp settings now (.until limit) (.waitedInVain settings.blockTimeout.millis)

theorem GivesUp.isCapacity {settings : Settings} {now : Instant} {deadline : Deadline} {e : CacheError}
    (h : GivesUp settings now deadline e) : e.isCapacity = true := by
  cases h <;> rfl

/-- `Op.look` takes a unit of room if there is one; else it passivates `victim?`; else it gives up
or answers `.later`. -/
theorem exec_look_cases {deadline : Deadline} {r : Except CacheError Look}
    (h : exec (look s deadline) w = (r, w')) :
    (w.cache.occupied < s.settings.maxSize ∧ r = .ok .taken ∧
        w' = { w with cache := { w.cache with occupied := w.cache.occupied + 1 } }) ∨
      (¬w.cache.occupied < s.settings.maxSize ∧
        ∃ victim answer, w.cache.victim? = some victim ∧
          exec (passivate s victim) w = (answer, w') ∧
          (answer = .ok () ∧ r = .ok .made ∨
            ∃ cause, answer = .error cause ∧ r = .error (evictionError victim cause))) ∨
      (¬w.cache.occupied < s.settings.maxSize ∧ w.cache.victim? = none ∧ w' = w ∧
        ((∃ e, r = .error e ∧ GivesUp s.settings w.now deadline e) ∨
          ∃ delay, r = .ok (.later delay))) := by
  rw [look, exec_bind_ok (exec_cache _)] at h
  split at h
  · rename_i hroom
    cases h
    exact .inl ⟨hroom, rfl, rfl⟩
  · rename_i hroom
    refine .inr ?_
    cases hv : w.cache.victim? with
    | some victim =>
      rw [hv] at h
      obtain ⟨answer, w₁, hp, h⟩ := exec_attempt_bind h
      refine .inl ⟨hroom, victim, answer, rfl, ?_⟩
      cases answer with
      | ok _ => cases h; exact ⟨hp, .inl ⟨rfl, rfl⟩⟩
      | error cause => cases h; exact ⟨hp, .inr ⟨cause, rfl, rfl⟩⟩
    | none =>
      rw [hv] at h
      dsimp only at h
      rw [exec_bind_ok (exec_now _)] at h
      refine .inr ⟨hroom, rfl, ?_⟩
      cases deadline with
      | never => cases h; exact ⟨rfl, .inl ⟨_, rfl, .atOnce⟩⟩
      | «until» limit =>
        dsimp only at h
        split at h
        · rename_i hlimit
          cases h
          exact ⟨rfl, .inl ⟨_, rfl, .inVain hlimit⟩⟩
        · cases h
          exact ⟨rfl, .inr ⟨_, rfl⟩⟩
      | unbounded => cases h; exact ⟨rfl, .inr ⟨_, rfl⟩⟩

/-- The slot of `victim?` is ready. -/
theorem ready_of_victim? (hx : Sound s (w.scene d)) (hv : w.cache.victim? = some key) :
    ∃ slot state, w.cache.slot? key = some slot ∧ slot.IsReady state := by
  obtain ⟨slot, hslot, -, hready⟩ := Cache.slot?_of_victim? hx.distinct hv
  obtain ⟨state, hr⟩ := hx.ready_of_stage hslot hready
  exact ⟨slot, state, hslot, hr⟩

/-- `Op.look` takes a unit of room, or is an `Incident`. -/
theorem exec_look (hs : s.Discreet) (hx : Sound s (w.scene d)) {deadline : Deadline}
    {r : Except CacheError Look} (h : exec (look s deadline) w = (r, w')) :
    (r = .ok .taken ∧ w.cache.occupied < s.settings.maxSize ∧
        w'.scene d =
          { w.scene d with cache := { w.cache with occupied := w.cache.occupied + 1 } }) ∨
      r ≠ .ok .taken ∧ Incident s (w.scene d) r (w'.scene d) ∧
        ∀ e, r = .error e → e.isCapacity = true ∨ ∃ k phase message, e = .lifecycle k phase message := by
  obtain ⟨hroom, rfl, rfl⟩ | ⟨-, victim, answer, hv, hp, hanswer⟩ | ⟨-, -, rfl, hr⟩ :=
    exec_look_cases h
  · exact .inl ⟨rfl, hroom, rfl⟩
  · obtain ⟨slot, state, hslot, hready⟩ := ready_of_victim? hx hv
    obtain ⟨ds, hparted⟩ := exec_passivate (d := d) hs hslot hready hp
    obtain ⟨rfl, rfl⟩ | ⟨cause, rfl, rfl⟩ := hanswer
    · exact .inr ⟨nofun, hparted.incident.answer nofun, nofun⟩
    · obtain ⟨hcapacity, hne⟩ | ⟨k, phase, message, hcause, heq⟩ :=
        evictionError_cases victim cause
      · refine .inr ⟨nofun, hparted.incident.answer fun k phase message he => ?_, ?_⟩
        · exact hne k phase message (Except.error.inj he)
        · rintro e ⟨⟩
          exact .inl hcapacity
      · rw [heq]
        refine .inr ⟨nofun, hparted.incident.recast, ?_⟩
        rintro e ⟨⟩
        exact .inr ⟨k, phase, message, hcause⟩
  · obtain ⟨e, rfl, hgives⟩ | ⟨delay, rfl⟩ := hr
    · refine .inr ⟨nofun, .refl _ ?_, fun e' he => by cases he; exact .inl hgives.isCapacity⟩
      rintro k phase message ⟨⟩
      exact nomatch hgives
    · exact .inr ⟨nofun, .refl _ nofun, nofun⟩

/-! ## Sweeps -/

/-- `Op.passivate` of ready sessions, one after the other. -/
inductive Parade (s : Surroundings σ ι ω) : World σ ω → World σ ω → Prop where
  | nil {w : World σ ω} : Parade s w w
  | cons {w w₁ w' : World σ ω} {key : Key} {slot : Slot σ} {state : σ} {r : Except CacheError Unit}
      (hslot : w.cache.slot? key = some slot) (hr : slot.IsReady state)
      (h : exec (passivate s key) w = (r, w₁)) (h' : Parade s w₁ w') : Parade s w w'

/-- What `Op.passivate` of a ready session keeps, a `Parade` keeps. -/
theorem Parade.keeps {P : World σ ω → Prop}
    (hP : ∀ {w w₁ : World σ ω} {key : Key} {slot : Slot σ} {state : σ} {r : Except CacheError Unit},
      w.cache.slot? key = some slot → slot.IsReady state → exec (passivate s key) w = (r, w₁) →
      P w → P w₁)
    (h : Parade s w w') (hw : P w) : P w' := by
  induction h with
  | nil => exact hw
  | cons hslot hr hp _ ih => exact ih (hP hslot hr hp hw)

theorem Parade.incident (hs : s.Discreet) (h : Parade s w w') {r : Except CacheError α}
    (hr : ∀ key phase message, r ≠ .error (.lifecycle key phase message)) :
    Incident s (w.scene d) r (w'.scene d) := by
  induction h with
  | nil => exact .refl _ hr
  | cons hslot hready hp _ ih =>
    obtain ⟨ds, hparted⟩ := exec_passivate (d := d) hs hslot hready hp
    exact hparted.incident.trans ih

/-- One round of a sweep: `passivateCounting` of a ready session, followed by the rest. -/
theorem passivateCounting_then (hs : s.Discreet) (hx : Sound s (w.scene d))
    (hslot : w.cache.slot? key = some slot) (hready : slot.stage = .ready) {report : SweepReport}
    {rest : SweepReport → Op σ ω SweepReport} {r : Except CacheError SweepReport}
    (hrest : ∀ {w₁ report'}, Sound s (w₁.scene d) → exec (rest report') w₁ = (r, w') →
      (∃ report, r = .ok report) ∧ Parade s w₁ w')
    (h : exec (do rest (← passivateCounting s key report)) w = (r, w')) :
    (∃ report, r = .ok report) ∧ Parade s w w' := by
  obtain ⟨state, hr⟩ := hx.ready_of_stage hslot hready
  rw [passivateCounting, bind_assoc] at h
  obtain ⟨answer, w₁, hp, h⟩ := exec_attempt_bind h
  obtain ⟨ds, hparted⟩ := exec_passivate (d := d) hs hslot hr hp
  have hsound := hparted.path.sound hx
  have hnext : ∃ report', exec (rest report') w₁ = (r, w') := by
    cases answer <;> exact ⟨_, h⟩
  obtain ⟨report', hnext⟩ := hnext
  obtain ⟨hok, hlater⟩ := hrest hsound hnext
  exact ⟨hok, .cons hslot hr hp hlater⟩

theorem exec_sweepKeys (hs : s.Discreet) {timeout : Duration} {keys : List Key}
    (hx : Sound s (w.scene d)) {report : SweepReport} {r : Except CacheError SweepReport}
    (h : exec (sweepKeys s timeout keys report) w = (r, w')) :
    (∃ report', r = .ok report') ∧ Parade s w w' := by
  induction keys generalizing w report with
  | nil => cases h; exact ⟨⟨_, rfl⟩, .nil⟩
  | cons key rest ih =>
    rw [sweepKeys, exec_bind_ok (exec_now _), exec_bind_ok (exec_cache _)] at h
    split at h
    · rename_i slot hslot
      split at h
      · rename_i hdue
        simp only [Bool.and_eq_true, decide_eq_true_eq] at hdue
        exact passivateCounting_then hs hx hslot hdue.1.2 (fun hx' h' => ih hx' h') h
      · exact ih hx h
    · exact ih hx h

theorem exec_passivateStays (hs : s.Discreet) {stays : List (Key × Nat)}
    (hx : Sound s (w.scene d)) {report : SweepReport} {r : Except CacheError SweepReport}
    (h : exec (passivateStays s stays report) w = (r, w')) :
    (∃ report', r = .ok report') ∧ Parade s w w' := by
  induction stays generalizing w report with
  | nil => cases h; exact ⟨⟨_, rfl⟩, .nil⟩
  | cons stay rest ih =>
    rw [passivateStays, exec_bind_ok (exec_cache _)] at h
    split at h
    · rename_i slot hslot
      split at h
      · rename_i hdue
        simp only [Bool.and_eq_true, decide_eq_true_eq] at hdue
        exact passivateCounting_then hs hx hslot hdue.2 (fun hx' h' => ih hx' h') h
      · exact ih hx h
    · exact ih hx h

theorem exec_passivateAll (hs : s.Discreet) (hx : Sound s (w.scene d))
    {r : Except CacheError SweepReport} (h : exec (passivateAll s) w = (r, w')) :
    (∃ report, r = .ok report) ∧ Parade s w w' := by
  rw [passivateAll, exec_bind_ok (exec_cache _)] at h
  exact exec_passivateStays hs hx h

theorem exec_sweepIdle (hs : s.Discreet) (hx : Sound s (w.scene d))
    {r : Except CacheError SweepReport} (h : exec (sweepIdle s) w = (r, w')) :
    (∃ report, r = .ok report) ∧ Parade s w w' := by
  rw [sweepIdle] at h
  split at h
  · cases h
    exact ⟨⟨_, rfl⟩, .nil⟩
  · rw [exec_bind_ok (exec_cache _), exec_bind_ok (exec_now _)] at h
    exact exec_sweepKeys hs hx h

theorem exec_purgeRecords (ht : s.settings.removalTimeout ≠ none) {cutoff : Instant}
    {r : Except CacheError (List Key)}
    (h : exec (onStore (Store.purgeOlderThan cutoff)) w = (r, w')) :
    Shift s (w.scene d) [] (w'.scene d) ∧ ∀ e, r = .error e → ∃ e', e = .store e' := by
  rw [exec_onStore] at h
  rcases hr : exec (Store.purgeOlderThan cutoff) w.store with ⟨r₁, store⟩
  obtain ⟨hgate, hfewer, hstore⟩ := Store.exec_purgeOlderThan hr
  rw [hr] at h
  cases h
  rw [World.scene_store hgate d]
  exact ⟨.purge ht hfewer, hstore⟩

/-- `Op.expirePassivated` is a path without deeds, and fails with an error of the store only. -/
theorem exec_expirePassivated {r : Except CacheError Nat}
    (h : exec (expirePassivated s) w = (r, w')) :
    Path s (w.scene d) [] (w'.scene d) ∧ ∀ e, r = .error e → ∃ e', e = .store e' := by
  rw [expirePassivated] at h
  split at h
  · cases h
    exact ⟨.nil, nofun⟩
  · rename_i timeout htimeout
    have ht : s.settings.removalTimeout ≠ none := by rw [htimeout]; exact Option.some_ne_none _
    rw [exec_bind_ok (exec_now _)] at h
    obtain ⟨purged, w₁, hp, h⟩ | ⟨e, hp, rfl⟩ := exec_bind_cases h
    · obtain ⟨hpurge, -⟩ := exec_purgeRecords (d := d) ht hp
      cases h
      exact ⟨(Path.one hpurge).trans (.one (.count _ rfl)), nofun⟩
    · obtain ⟨hpurge, hstore⟩ := exec_purgeRecords (d := d) ht hp
      refine ⟨.one hpurge, ?_⟩
      rintro e ⟨⟩
      exact hstore e rfl

/-- `Op.sweep` answers a report: it is a `Parade`, followed by `Op.expirePassivated`. -/
theorem exec_sweep_cases (hs : s.Discreet) (hx : Sound s (w.scene d))
    {r : Except CacheError SweepReport} (h : exec (sweep s) w = (r, w')) :
    (∃ report, r = .ok report) ∧
      ∃ w₁ answer, Parade s w w₁ ∧ exec (expirePassivated s) w₁ = (answer, w') := by
  rw [sweep] at h
  obtain ⟨report, w₁, hp, h⟩ | ⟨e, hp, rfl⟩ := exec_bind_cases h
  · obtain ⟨-, hidle⟩ := exec_sweepIdle (d := d) hs hx hp
    obtain ⟨answer, w₂, hq, h⟩ := exec_attempt_bind h
    cases answer <;> cases h <;> exact ⟨⟨_, rfl⟩, w₁, _, hidle, hq⟩
  · obtain ⟨⟨report, hok⟩, -⟩ := exec_sweepIdle (d := d) hs hx hp
    exact nomatch hok

theorem exec_sweep (hs : s.Discreet) (hx : Sound s (w.scene d))
    {r : Except CacheError SweepReport} (h : exec (sweep s) w = (r, w')) :
    (∃ report, r = .ok report) ∧ Incident s (w.scene d) r (w'.scene d) := by
  obtain ⟨⟨report, rfl⟩, w₁, answer, hparade, hexpire⟩ := exec_sweep_cases (d := d) hs hx h
  obtain ⟨ds, hpath, hds, -⟩ : Incident s (w.scene d) (.ok report) (w₁.scene d) :=
    hparade.incident hs nofun
  exact ⟨⟨report, rfl⟩, ds, hpath.still (exec_expirePassivated hexpire).1, hds, nofun⟩

end Op

end SessionCache
