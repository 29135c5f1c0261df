import SessionCache.Proofs.Traffic.Upkeep

/-!
# What operations do to a session

The operations on one session: it is made, brought back from the store, checked out, given back,
removed. Each statement says for every way in which an operation ends what it answers, and which
path of shifts it went.

* `exec_introduce`: a session is made.
* `exec_announce`, `exec_settle`: a session is brought back from the store, before and after the
  search for room.
* `exec_checkOut`, `exec_finish`: a session goes to a caller and comes back.
* `exec_remove`, `exec_removeOnFinish`: a session is removed.
* `exec_peek`, `exec_contains`: nothing happens to a session.
-/

namespace SessionCache

variable {σ ι ω α : Type} {s : Surroundings σ ι ω} {d : Desk σ ι} {w w' : World σ ω} {key : Key}
  {slot : Slot σ} {state : σ}

namespace Op

/-! ## Checking out -/

/-- `Op.checkOut` of a ready session, whose slot may be `held`: the caller gets the state, or the
session is lost. -/
theorem exec_checkOut (hs : s.Discreet) {c : Cache σ} {slot' : Slot σ}
    (hc : takeOut key w.cache = takeOut key c) (hslot' : w.cache.slot? key = some slot')
    (hready : slot'.stage = .ready) (hstate : slot'.payload = some state)
    (hslot : c.slot? key = some slot) (hr : slot.IsReady state) {r : Except CacheError σ}
    (h : exec (checkOut s key) w = (r, w')) :
    (∃ state', r = .ok state' ∧ s.Turns .preInvoke key state state' ∧
        (∃ slot, w'.cache.slot? key = some slot ∧ slot.IsOut) ∧
        Path s { w.scene d with cache := c }
          [.fired ⟨.preInvoke, key, false⟩, .checkedOut key state']
          { w'.scene d with handles := (key, state') ::ₘ d.handles }) ∨
      ∃ message, r = .error (.lifecycle key .preInvoke message) ∧ w'.cache.slot? key = none ∧
        Path s { w.scene d with cache := c } [.fired ⟨.preInvoke, key, true⟩, .lost key]
          (w'.scene d) := by
  rw [checkOut, exec_bind_ok (exec_cache _), hslot'] at h
  dsimp only at h
  rw [exec_bind_ok (exec_step (by rw [hready]; rfl) w), hstate] at h
  dsimp only at h
  rw [exec_bind_ok (exec_modifyCache _ _)] at h
  obtain ⟨r₁, w₁, hf, h⟩ := exec_attempt_bind h
  obtain ⟨haside, ⟨message, rfl, hfires⟩ | ⟨after, rfl, hfires, hturns⟩⟩ := exec_fire hs hf
  · refine .inr ⟨message, ?_⟩
    obtain ⟨rfl, hd⟩ := exec_then_throw (fun h => (exec_forceRemove h d).1) h
    obtain ⟨-, hlose⟩ := forceRemove_path (d := d) (c := c) (o := w.outside) []
      (haside.cache.trans hc) hslot hr (by simp) (.one hfires) hd
    rw [World.scene_aside haside d] at hlose
    exact ⟨rfl, slot?_forceRemove hd, Path.trans (haside.path rfl) hlose⟩
  · refine .inl ⟨after.getD state, ?_⟩
    dsimp only at h
    rw [exec_bind_ok (exec_now _), exec_bind_ok (exec_modifyCache _ _),
      exec_bind_ok (exec_lock s _), exec_bind_ok (exec_modifyUsage _ _)] at h
    have hupdate : w₁.cache.update key (fun slot =>
        { slot with stage := .inUse, lastAccess := w₁.now, held := false }) =
        c.update key (·.toOut w₁.now) := by
      rw [haside.cache]
      exact (congrArg (Cache.update · key _) hc).trans (update_takeOut c fun _ => rfl)
    rw [hupdate] at h
    have hlock := (hs.lock { w₁ with cache := c.update key (·.toOut w₁.now) }).passes
    obtain ⟨rfl, hcache, hstore, hnow, hout⟩ : r = .ok (after.getD state) ∧
        w'.cache = (c.update key (·.toOut w₁.now)).markInUse w'.now key ∧
        w'.store = w₁.store ∧ w₁.now.Passes w'.now ∧ w'.outside = w₁.outside := by
      cases h
      exact ⟨rfl, rfl, rfl, hlock, rfl⟩
    have hout' : w'.cache.slot? key = some (slot.toOut w₁.now) := by
      rw [hcache]
      exact Cache.update_self hslot (·.toOut w₁.now)
    refine ⟨rfl, hturns state rfl, ⟨_, hout', hr.toOut w₁.now⟩, ?_⟩
    rw [World.scene_congr hcache (hstore.trans haside.store) d, hout]
    exact Path.trans ((haside.passes.trans hnow).path rfl)
      (.one (.checkOut w₁.now hslot hr (hturns state rfl) (.one hfires)))

/-! ## Making sessions -/

/-- `Op.introduce` with a unit of room: the session is ready under the fresh key, or the unit is
given back. -/
theorem exec_introduce (hs : s.Discreet) {args : ι} {rest : Multiset (Task ι)}
    (ht : d.tasks = .introducing args ::ₘ rest) (hk : (s.freshKey.run w).1 ∉ d.known)
    {r : Except CacheError Key} (h : exec (introduce s args) w = (r, w')) :
    (∃ state state' slot, r = .ok (s.freshKey.run w).1 ∧
        s.Makes (s.freshKey.run w).1 args state ∧
        s.Turns .postConstruct (s.freshKey.run w).1 state state' ∧
        slot.IsReady state' ∧ (w.now ≤ slot.lastAccess ∧ slot.lastAccess ≤ w'.now) ∧
        w'.cache = ((w.cache.link (s.freshKey.run w).1 slot).markIdle w'.now
          (s.freshKey.run w).1).countCreated ∧
        Path s (w.scene d)
          [.fired ⟨.postConstruct, (s.freshKey.run w).1, false⟩,
            .entered (s.freshKey.run w).1 state']
          (w'.scene { d with tasks := rest, known := insert (s.freshKey.run w).1 d.known })) ∨
      ∃ message fs, r = .error (.lifecycle (s.freshKey.run w).1 .postConstruct message) ∧
        (fs = [] ∨ fs = [⟨.postConstruct, (s.freshKey.run w).1, true⟩]) ∧
        w'.cache = { w.cache with occupied := w.cache.occupied - 1 } ∧
        Path s (w.scene d) (fs.map .fired ++ [.unmade (s.freshKey.run w).1])
          (w'.scene { d with tasks := rest, known := insert (s.freshKey.run w).1 d.known }) := by
  have hfresh := hs.freshKey w
  have hprep : s.Prepares w.outside (s.freshKey.run w).2.outside := .freshKey w
  rw [introduce, exec_bind_ok (exec_lift _ _)] at h
  obtain ⟨r₁, w₁, hmade, h⟩ := exec_attempt_bind h
  rw [exec_bind_ok (exec_step rfl _)] at hmade
  generalize s.freshKey.run w = fresh at *
  obtain ⟨key, w₀⟩ := fresh
  obtain ⟨state', w₂, hf, hr⟩ | ⟨e, hf, hr⟩ := exec_bind_cases hmade
  · cases hr
    obtain ⟨haside, ⟨state, _, ⟨⟩, hmakes, hturns, hstory⟩ | ⟨_, ⟨⟩, -⟩⟩ := exec_construct hs hf
    have hboth : Aside w w₁ := hfresh.trans haside
    dsimp only at h
    have hlock := hs.lock w₁
    rw [exec_bind_ok (exec_now _), exec_bind_ok (exec_lock s _), exec_bind_ok (exec_link _ _ _),
      exec_bind_ok (exec_modifyUsage _ _), exec_bind_ok (exec_signal _),
      exec_bind_ok (exec_modifyCounters _ _)] at h
    let slot : Slot σ := {
      stage := .ready
      payload := some state'
      lastAccess := w₁.now
      reserved := true
      stay := w₁.stays }
    have hready : slot.IsReady state' := ⟨rfl, rfl, rfl, rfl, rfl⟩
    obtain ⟨rfl, hcache, hstore, hnow, hout⟩ : r = .ok key ∧
        w'.cache = ((w.cache.link key slot).markIdle w'.now key).countCreated ∧
        w'.store = w₁.store ∧ w₁.now.Passes w'.now ∧ w'.outside = w₁.outside := by
      cases h
      refine ⟨rfl, ?_, rfl, hlock.passes, rfl⟩
      rw [hboth.cache]
      rfl
    refine .inl ⟨state, state', slot, rfl, hmakes, hturns, hready, ⟨hboth.now, hnow.1⟩, hcache, ?_⟩
    rw [World.scene_congr hcache (hstore.trans hboth.store), hout]
    have henter : Path s (w.scene d) _ _ := Path.quietly ((hboth.passes.trans hnow).path rfl)
      (.one (.enter ht hk hmakes hturns hready hnow.1 (.prepare hprep hstory)))
    exact henter.still (.one (.count _ rfl))
  · cases hr
    obtain ⟨haside, ⟨_, _, ⟨⟩, -⟩ | ⟨message, ⟨⟩, hcases⟩⟩ := exec_construct hs hf
    have hboth : Aside w w₁ := hfresh.trans haside
    obtain ⟨rfl, hcache, hstore, hnow, hout⟩ :
        r = .error (.lifecycle key .postConstruct message) ∧
        w'.cache = { w.cache with occupied := w.cache.occupied - 1 } ∧
        w'.store = w₁.store ∧ w'.now = w₁.now ∧ w'.outside = w₁.outside := by
      cases h
      exact ⟨rfl, congrArg (fun c => { c with occupied := c.occupied - 1 }) hboth.cache, rfl, rfl,
        rfl⟩
    have hpath : ∀ fs, (fs = [] ∨ fs = [⟨.postConstruct, key, true⟩]) → s.Story fs w₀.outside w₁.outside →
        Path s (w.scene d) (fs.map .fired ++ [.unmade key])
          (w'.scene { d with tasks := rest, known := insert key d.known }) := by
      intro fs hfs hstory
      rw [World.scene_congr hcache (hstore.trans hboth.store), hnow, hout]
      exact Path.quietly (hboth.path rfl) (.one (.unmade fs ht hk hfs (.prepare hprep hstory)))
    refine .inr ⟨message, ?_⟩
    obtain ⟨-, hstory⟩ | hstory := hcases
    · exact ⟨[], rfl, .inl rfl, hcache, hpath [] (.inl rfl) hstory⟩
    · exact ⟨_, rfl, .inr rfl, hcache, hpath _ (.inr rfl) hstory⟩

/-! ## Bringing sessions back -/

/-- The slot that `Op.linkPlaceholder` makes in `w`. -/
def placeholder (w : World σ ω) : Slot σ :=
  { stage := .passivated, payload := none, lastAccess := w.now, held := true, stay := w.stays }

theorem isPlaceholder (w : World σ ω) : (placeholder w).IsPlaceholder := ⟨rfl, rfl, rfl, rfl, rfl⟩

theorem exec_linkPlaceholder (key : Key) (w : World σ ω) :
    exec (linkPlaceholder key) w =
      (.ok (), { w with cache := w.cache.link key (placeholder w), stays := w.stays + 1 }) := rfl

theorem exec_abandon {r : Except CacheError α} {failure : CacheError}
    (h : exec (abandon key failure) w = (r, w')) :
    r = .error failure ∧
      w' = { w with cache := w.cache.unlink key, signals := w.signals + 1 } := by
  cases h
  exact ⟨rfl, rfl⟩

/-- `Op.announce` of a key without a slot: the placeholder stays if there is a record, and goes away
if not. -/
theorem exec_announce (hslot : w.cache.slot? key = none) (hu : w.cache.usage.find? key = none)
    {r : Except CacheError Unit} (h : exec (announce key) w = (r, w')) (d : Desk σ ι) :
    (r = .ok () ∧ w.store.contents key ≠ none ∧
        w'.scene d = { w.scene d with cache := w.cache.link key (placeholder w) }) ∨
      (r = .error (.notFound key) ∧ w.store.contents key = none ∧ w'.scene d = w.scene d) ∨
      ∃ e, r = .error (.store e) ∧ w'.scene d = w.scene d := by
  rw [announce, exec_bind_ok (exec_linkPlaceholder _ _)] at h
  obtain ⟨answer, w₁, hq, h⟩ := exec_attempt_bind h
  rw [exec_onStore] at hq
  rcases hr : exec (Store.holds key) w.store with ⟨r₁, store⟩
  obtain ⟨hgate, hcontents, hcases⟩ := Store.exec_holds hr
  have hunlink : (w.cache.link key (placeholder w)).unlink key = w.cache :=
    Cache.unlink_link hslot hu rfl
  have hback : ∀ {n m : Nat}, ({ w with
      store := store, signals := n, stays := m,
      cache := (w.cache.link key (placeholder w)).unlink key } : World σ ω).scene d = w.scene d := by
    intro n m
    simp only [World.scene, hunlink, hcontents, hgate.fault]
  dsimp only at hq
  rw [hr] at hq
  cases hq
  obtain rfl | ⟨e, rfl⟩ := hcases
  · cases hc : w.store.contents key with
    | none =>
      rw [hc] at h
      obtain ⟨rfl, rfl⟩ := exec_abandon h
      exact .inr (.inl ⟨rfl, rfl, hback⟩)
    | some bytes =>
      rw [hc] at h
      cases h
      refine .inl ⟨rfl, Option.some_ne_none _, ?_⟩
      simp only [World.scene, hcontents, hgate.fault]
  · obtain ⟨rfl, rfl⟩ := exec_abandon h
    exact .inr (.inr ⟨e, rfl, hback⟩)

/-- What `Op.load` comes to, from the scene with the placeholder, by its answer. -/
inductive Loaded (s : Surroundings σ ι ω) (key : Key) (x : Scene σ ι ω) :
    Except CacheError σ → Scene σ ι ω → Prop where
  /-- The record decodes to `state`, `.postActivate` makes `state'` of it, and the record is
  deleted. -/
  | ok {bytes : ByteArray} {state state' : σ} {o : ω} (hr : x.contents key = some bytes)
      (hb : Store.stateOf s.codec key bytes = .ok state)
      (ht : s.Turns .postActivate key state state')
      (ho : s.Story [⟨.preActivate, key, false⟩, ⟨.postActivate, key, false⟩] x.outside o) :
      Loaded s key x (.ok state')
        { x with contents := Function.update x.contents key none, outside := o }
  /-- A callback failed, and `discardRecord` followed. -/
  | lost {fs : List Firing} {phase : Phase} {message : String}
      {contents : Key → Option ByteArray} {o o' : ω}
      (hf : fs = [] ∨ fs = [⟨.preActivate, key, false⟩]) (hc : x.Discards key contents)
      (ho : s.Story fs x.outside o) (ho' : s.Story [⟨phase, key, true⟩] o o') :
      Loaded s key x (.error (.lifecycle key phase message))
        { x with cache := x.cache.countRemoved, contents, outside := o' }
  /-- The record does not decode, and is deleted. -/
  | spoiled {bytes : ByteArray} {fault : RecordFault} {o : ω} (hr : x.contents key = some bytes)
      (hb : Store.stateOf s.codec key bytes = .error fault)
      (ho : s.Story [⟨.preActivate, key, false⟩] x.outside o) :
      Loaded s key x (.error (.deserialization key fault))
        { x with contents := Function.update x.contents key none, outside := o }
  /-- There is no record any more. -/
  | missed {o : ω} (hr : x.contents key = none)
      (ho : s.Story [⟨.preActivate, key, false⟩] x.outside o) :
      Loaded s key x (.error (.notFound key)) { x with outside := o }
  /-- A call of the backend failed, and the record is as it was. -/
  | failed {e : StoreError} {fs : List Firing} {o : ω}
      (hf : fs = [⟨.preActivate, key, false⟩] ∨
        fs = [⟨.preActivate, key, false⟩, ⟨.postActivate, key, false⟩])
      (ho : s.Story fs x.outside o) : Loaded s key x (.error (.store e)) { x with outside := o }

theorem exec_readRecord {codec : Codec σ} {r : Except CacheError σ}
    (h : exec (onStore (Store.activate codec key)) w = (r, w')) (d : Desk σ ι) :
    (∃ bytes state, r = .ok state ∧ w.store.contents key = some bytes ∧
        Store.stateOf codec key bytes = .ok state ∧ w'.scene d = w.scene d) ∨
      (r = .error (.notFound key) ∧ w.store.contents key = none ∧ w'.scene d = w.scene d) ∨
      (∃ bytes fault, r = .error (.deserialization key fault) ∧ w.store.contents key = some bytes ∧
        Store.stateOf codec key bytes = .error fault ∧
        w'.scene d =
          { w.scene d with contents := Function.update w.store.contents key none }) ∨
      ∃ e, r = .error (.store e) ∧ w'.scene d = w.scene d := by
  rw [exec_onStore] at h
  rcases hr : exec (Store.activate codec key) w.store with ⟨r₁, store⟩
  obtain ⟨hgate, hcases⟩ := Store.exec_activate hr
  have hscene := World.scene_store hgate d
  have hsame : store.contents = w.store.contents →
      ({ w with store } : World σ ω).scene d = w.scene d := fun hc => hscene.trans (by rw [hc]; rfl)
  rw [hr] at h
  cases h
  obtain ⟨bytes, state, rfl, hc, hb, hm⟩ | ⟨rfl, hc, hm⟩ | ⟨bytes, fault, rfl, hc, hb, hm⟩ |
    ⟨e, rfl, hm⟩ := hcases
  · exact .inl ⟨bytes, state, rfl, hc, hb, hsame hm⟩
  · exact .inr (.inl ⟨rfl, hc, hsame hm⟩)
  · exact .inr (.inr (.inl ⟨bytes, fault, rfl, hc, hb, hscene.trans (by rw [hm])⟩))
  · exact .inr (.inr (.inr ⟨e, rfl, hsame hm⟩))

theorem exec_welcome (hs : s.Discreet) {x : Scene σ ι ω} {bytes : ByteArray}
    (hx : w.scene d = { x with now := w.now, outside := w.outside })
    (hr : x.contents key = some bytes) (hb : Store.stateOf s.codec key bytes = .ok state)
    (ho : s.Fires ⟨.preActivate, key, false⟩ x.outside w.outside) {r : Except CacheError σ}
    (h : exec (welcome s key state) w = (r, w')) :
    w.now.Passes w'.now ∧ Loaded s key { x with now := w'.now } r (w'.scene d) := by
  obtain ⟨r₁, w₁, hpost, h⟩ := exec_attempt_bind h
  obtain ⟨haside, ⟨message, rfl, hfires⟩ | ⟨after, rfl, hfires, hturns⟩⟩ := exec_fire hs hpost
  · obtain ⟨rfl, hd⟩ := exec_then_throw (fun h => (exec_discardRecord h d).1) h
    obtain ⟨-, hdiscards, hscene⟩ := exec_discardRecord hd d
    rw [World.scene_aside haside d, hx] at hdiscards hscene
    rw [haside.cache, show w.cache = x.cache from congrArg Scene.cache hx] at hscene
    have hnow : w'.now = w₁.now := congrArg Scene.now hscene
    rw [hscene, hnow]
    exact ⟨haside.passes, .lost (.inr rfl) hdiscards (.one ho) (.one hfires)⟩
  · have hm : w₁.store.contents = x.contents := by
      rw [haside.store]
      exact congrArg Scene.contents hx
    obtain ⟨found, w₂, hd, h⟩ | ⟨failure, hd, rfl⟩ := exec_bind_cases h
    · obtain ⟨hscene, ⟨_, ⟨⟩, hc, -⟩ | ⟨_, ⟨⟩, -⟩⟩ := exec_removeRecord hd d
      cases h
      rw [World.scene_aside haside d, hx, hc, hm] at hscene
      have hnow : w'.now = w₁.now := congrArg Scene.now hscene
      rw [hscene, hnow]
      exact ⟨haside.passes, .ok hr hb (hturns state rfl) (.two ho hfires)⟩
    · obtain ⟨hscene, ⟨_, ⟨⟩, -⟩ | ⟨e, ⟨⟩, hc, -⟩⟩ := exec_removeRecord hd d
      rw [World.scene_aside haside d, hx, hc, hm] at hscene
      have hnow : w'.now = w₁.now := congrArg Scene.now hscene
      rw [hscene, hnow]
      exact ⟨haside.passes, .failed (.inr rfl) (.two ho hfires)⟩

/-- `Op.load` comes to one of the cases of `Loaded`. -/
theorem exec_load (hs : s.Discreet) {r : Except CacheError σ} (h : exec (load s key) w = (r, w'))
    (d : Desk σ ι) :
    w.now.Passes w'.now ∧ Loaded s key { w.scene d with now := w'.now } r (w'.scene d) := by
  obtain ⟨r₁, w₁, hpre, h⟩ := exec_attempt_bind h
  obtain ⟨haside, ⟨message, rfl, hfires⟩ | ⟨after, rfl, hfires, -⟩⟩ := exec_fire hs hpre
  · obtain ⟨rfl, hd⟩ := exec_then_throw (fun h => (exec_discardRecord h d).1) h
    obtain ⟨-, hdiscards, hscene⟩ := exec_discardRecord hd d
    rw [World.scene_aside haside d] at hdiscards hscene
    rw [haside.cache] at hscene
    have hnow : w'.now = w₁.now := congrArg Scene.now hscene
    rw [hscene, hnow]
    exact ⟨haside.passes, .lost (.inl rfl) hdiscards .nil (.one hfires)⟩
  · have hscene₁ := World.scene_aside haside d
    have hm : w₁.store.contents = w.store.contents := by rw [haside.store]
    obtain ⟨state, w₂, hr, h⟩ | ⟨failure, hr, rfl⟩ := exec_bind_cases h
    · obtain ⟨bytes, _, ⟨⟩, hc, hb, hscene⟩ | ⟨⟨⟩, -⟩ | ⟨_, _, ⟨⟩, -⟩ | ⟨_, ⟨⟩, -⟩ :=
        exec_readRecord hr d
      rw [hscene₁] at hscene
      rw [hm] at hc
      have hnow : w₂.now = w₁.now := congrArg Scene.now hscene
      have hout : w₂.outside = w₁.outside := congrArg Scene.outside hscene
      rw [← hnow, ← hout] at hscene
      obtain ⟨hpasses, hloaded⟩ := exec_welcome hs hscene hc hb (hout ▸ hfires) h
      exact ⟨haside.passes.trans (hnow ▸ hpasses), hloaded⟩
    · obtain ⟨_, _, ⟨⟩, -⟩ | ⟨⟨⟩, hc, hscene⟩ | ⟨bytes, fault, ⟨⟩, hc, hb, hscene⟩ |
        ⟨e, ⟨⟩, hscene⟩ := exec_readRecord hr d
      · rw [hscene₁] at hscene
        rw [hm] at hc
        have hnow : w'.now = w₁.now := congrArg Scene.now hscene
        rw [hscene, hnow]
        exact ⟨haside.passes, .missed hc (.one hfires)⟩
      · rw [hscene₁, hm] at hscene
        rw [hm] at hc
        have hnow : w'.now = w₁.now := congrArg Scene.now hscene
        rw [hscene, hnow]
        exact ⟨haside.passes, .spoiled hc hb (.one hfires)⟩
      · rw [hscene₁] at hscene
        have hnow : w'.now = w₁.now := congrArg Scene.now hscene
        rw [hscene, hnow]
        exact ⟨haside.passes, .failed (.inl rfl) (.one hfires)⟩

/-- What `Op.settle` or `Op.checkOut` did to a session that was not handed out, by the error of the
operation. -/
inductive Fallen (key : Key) (x : Scene σ ι ω) : CacheError → List (Deed σ) → Prop where
  | lost (fs : List Firing) {phase : Phase} {message : String}
      (hf : ∀ f ∈ fs, f.key = key ∧ f.failed = false) :
      Fallen key x (.lifecycle key phase message)
        (fs.map .fired ++ [.fired ⟨phase, key, true⟩, .lost key])
  | spoiled {fault : RecordFault} :
      Fallen key x (.deserialization key fault)
        [.fired ⟨.preActivate, key, false⟩, .spoiled key]
  | missed (hr : x.contents key = none) :
      Fallen key x (.notFound key) [.fired ⟨.preActivate, key, false⟩]
  | failed {e : StoreError} {fs : List Firing}
      (hf : fs = [⟨.preActivate, key, false⟩] ∨
        fs = [⟨.preActivate, key, false⟩, ⟨.postActivate, key, false⟩]) :
      Fallen key x (.store e) (fs.map .fired)

/-- Counts a removal if the error says that the record did not decode. -/
def countSpoiled : CacheError → Cache σ → Cache σ
  | .deserialization _ _, c => c.countRemoved
  | _, c => c

/-- After `Op.load` failed, the unit of room and the placeholder go away. -/
theorem Loaded.retreat {x y : Scene σ ι ω} {rest : Multiset (Task ι)}
    (ht : x.tasks = .settling key ::ₘ rest) {failure : CacheError}
    (h : Loaded s key { x with cache := x.cache.update key fun slot => { slot with reserved := true } }
      (.error failure) y) :
    ∃ ds, Fallen key x failure ds ∧
      Path s x ds { y with cache := (countSpoiled failure y.cache).unlink key, tasks := rest } := by
  have haway : ∀ fs : List Firing, (∀ f ∈ fs, f.key = key ∧ f.failed = false) →
      ∀ f ∈ fs, x.Away f.key ∧ (f.failed = true → ∃ n, x.fault n (.delete f.key) ≠ none) := by
    intro fs hfs f hf
    obtain ⟨hk, hb⟩ := hfs f hf
    refine ⟨.inr ?_, fun hb' => nomatch hb.symm.trans hb'⟩
    rw [hk, ht]
    exact Multiset.mem_cons_self _ _
  cases h with
  | @lost fs _ _ _ _ _ hf hc ho ho' =>
    have hfs : ∀ f ∈ fs, f.key = key ∧ f.failed = false := by obtain rfl | rfl := hf <;> simp
    exact ⟨_, .lost _ hfs, Path.trans (.one (.attend _ (haway _ hfs) ho))
      (.one (.loseComing ht hc ho'))⟩
  | spoiled hr hb ho =>
    refine ⟨_, .spoiled, Path.trans (.one (.attend _ (haway _ ?_) ho))
      (Path.quietly (.one (.retreat ht)) (.one (.spoil ?_ hr hb)))⟩
    · simp
    · exact Cache.retract_self x.cache key
  | missed hr ho =>
    refine ⟨_, .missed hr, Path.still (.one (.attend _ (haway _ ?_) ho)) (.one (.retreat ht))⟩
    simp
  | failed hf ho =>
    refine ⟨_, .failed hf, Path.still (.one (.attend _ (haway _ ?_) ho)) (.one (.retreat ht))⟩
    obtain rfl | rfl := hf <;> simp

/-- `Op.settle` with a unit of room: the session is ready in a slot that is `held`, or `Fallen`. -/
theorem exec_settle (hs : s.Discreet) {rest : Multiset (Task ι)}
    (ht : d.tasks = .settling key ::ₘ rest) (hslot : w.cache.slot? key = some slot)
    (hp : slot.IsPlaceholder) {r : Except CacheError Unit}
    (h : exec (settle s key) w = (r, w')) :
    (∃ state slot', r = .ok () ∧ w'.cache.slot? key = some slot' ∧ slot'.stage = .ready ∧
        slot'.payload = some state ∧ ∃ c, takeOut key w'.cache = takeOut key c ∧
          (∃ slot, c.slot? key = some slot ∧ slot.IsReady state) ∧
          Path s (w.scene d)
            [.fired ⟨.preActivate, key, false⟩, .fired ⟨.postActivate, key, false⟩]
            { w'.scene { d with tasks := rest } with cache := c }) ∨
      ∃ failure ds, r = .error failure ∧ w'.cache.slot? key = none ∧
        Fallen key (w.scene d) failure ds ∧
        Path s (w.scene d) ds (w'.scene { d with tasks := rest }) := by
  rw [settle, exec_bind_ok (exec_step rfl _), exec_bind_ok (exec_modifyCache _ _)] at h
  obtain ⟨r₁, w₁, hl, h⟩ := exec_attempt_bind h
  obtain ⟨hpasses, hloaded⟩ := exec_load hs hl d
  generalize hy : w₁.scene d = y at hloaded
  cases r₁ with
  | error failure =>
    refine .inr ⟨failure, ?_⟩
    have hbegin : Path s (w.scene d) [] { w.scene d with now := w₁.now } := hpasses.path rfl
    obtain ⟨ds, hfallen, hpath⟩ := Loaded.retreat (x := { w.scene d with now := w₁.now }) ht hloaded
    obtain ⟨rfl, rfl⟩ : r = .error failure ∧ w' =
        { w₁ with
          cache := (countSpoiled failure w₁.cache).unlink key, signals := w₁.signals + 1 } := by
      cases failure <;> exact exec_abandon h
    refine ⟨ds, rfl, Cache.unlink_self _ _, ?_, ?_⟩
    · cases hfallen <;> constructor <;> assumption
    · rw [← hy] at hpath
      exact hbegin.quietly hpath
  | ok state =>
    refine .inl ⟨state, ?_⟩
    cases hloaded with
    | ok hr hb hturns ho =>
      dsimp only at h
      rw [exec_bind_ok (exec_now _), exec_bind_ok (exec_modifyCache _ _),
        exec_bind_ok (exec_lock s _), exec_bind_ok (exec_modifyUsage _ _), exec_modifyCounters] at h
      have hupdate : w₁.cache.update key (fun slot =>
          { slot with payload := some state, stage := .ready, lastAccess := w₁.now }) =
          w.cache.update key (·.toHeld w₁.now state) := by
        rw [show w₁.cache = w.cache.update key fun slot => { slot with reserved := true } from
          congrArg Scene.cache hy, Cache.update_update]
        rfl
      rw [hupdate] at h
      have hlock := (hs.lock { w₁ with cache := w.cache.update key (·.toHeld w₁.now state) }).passes
      obtain ⟨rfl, hcache, hstore, hnow, hout⟩ : r = .ok () ∧
          w'.cache = ((w.cache.update key (·.toHeld w₁.now state)).markIdle w'.now key).countActivated ∧
          w'.store = w₁.store ∧ w₁.now.Passes w'.now ∧ w'.outside = w₁.outside := by
        cases h
        exact ⟨rfl, rfl, rfl, hlock, rfl⟩
      have hheld : w'.cache.slot? key = some (slot.toHeld w₁.now state) := by
        rw [hcache]
        exact Cache.update_self hslot (·.toHeld w₁.now state)
      have hready : (w.cache.update key (·.toSettled w₁.now state)).slot? key =
          some (slot.toSettled w₁.now state) := by simp [hslot]
      have htake : takeOut key (w.cache.update key (·.toHeld w₁.now state)) =
          takeOut key (w.cache.update key (·.toSettled w₁.now state)) := by
        rw [takeOut, takeOut, Cache.update_update, Cache.update_update]
        rfl
      refine ⟨_, rfl, hheld, rfl, rfl, ((w.cache.update key (·.toSettled w₁.now state)).markIdle
        w'.now key).countActivated, ?_, ⟨_, hready, hp.toSettled w₁.now state⟩, ?_⟩
      · rw [hcache]
        exact congrArg (fun c => (Cache.markIdle c w'.now key).countActivated) htake
      · have hpath : Path s (w.scene d) _ _ := ((hpasses.trans hnow).path rfl).quietly
          (.one (.settle (x := { w.scene d with now := w'.now }) ht hr hb hturns hnow.1 ho))
        have hstill := hpath.still (.one (.count ((w.cache.update key
          (·.toSettled w₁.now state)).markIdle w'.now key).countActivated.counters rfl))
        have hfinal : w'.scene { d with tasks := rest } =
            { w₁.scene d with cache := w'.cache, tasks := rest, now := w'.now } := by
          simp only [World.scene, hstore, hout]
        rw [hfinal, hy]
        exact hstill

/-- `Op.settle` and `Op.checkOut` with a unit of room: the caller gets the state, or the session is
`Fallen`. -/
theorem exec_settle_checkOut (hs : s.Discreet) {rest : Multiset (Task ι)}
    (ht : d.tasks = .settling key ::ₘ rest) (hslot : w.cache.slot? key = some slot)
    (hp : slot.IsPlaceholder) {r : Except CacheError σ}
    (h : exec (do settle s key; checkOut s key) w = (r, w')) :
    (∃ state, r = .ok state ∧ (∃ slot, w'.cache.slot? key = some slot ∧ slot.IsOut) ∧
        Path s (w.scene d)
          [.fired ⟨.preActivate, key, false⟩, .fired ⟨.postActivate, key, false⟩,
            .fired ⟨.preInvoke, key, false⟩, .checkedOut key state]
          (w'.scene { d with tasks := rest, handles := (key, state) ::ₘ d.handles })) ∨
      ∃ failure ds, r = .error failure ∧ w'.cache.slot? key = none ∧ Fallen key (w.scene d) failure ds ∧
        Path s (w.scene d) ds (w'.scene { d with tasks := rest }) := by
  obtain ⟨_, w₁, hsettle, h⟩ | ⟨e, hsettle, rfl⟩ := exec_bind_cases h
  · obtain ⟨state, slot', -, hslot', hready, hstate, c, hc, ⟨slot, hslot, hr⟩, hpath⟩ |
      ⟨_, _, ⟨⟩, -⟩ := exec_settle hs ht hslot hp hsettle
    obtain ⟨state', rfl, -, hout, hpath'⟩ | ⟨message, rfl, hnone, hpath'⟩ :=
      exec_checkOut (d := { d with tasks := rest }) hs hc hslot' hready hstate hslot hr h
    · exact .inl ⟨state', rfl, hout, hpath.trans hpath'⟩
    · exact .inr ⟨_, _, rfl, hnone, .lost [⟨.preActivate, key, false⟩, ⟨.postActivate, key, false⟩]
        (by simp), hpath.trans hpath'⟩
  · obtain ⟨_, _, ⟨⟩, -⟩ | ⟨failure, ds, ⟨⟩, hnone, hfallen, hpath⟩ :=
      exec_settle hs ht hslot hp hsettle
    exact .inr ⟨e, ds, rfl, hnone, hfallen, hpath⟩

/-! ## Giving back -/

/-- The answer of a removal: `.ok`, or the failure of `.preDestroy` if `failed`. -/
def Removed (key : Key) (failed : Bool) (r : Except CacheError Unit) : Prop :=
  match failed with
  | false => r = .ok ()
  | true => ∃ message, r = .error (.lifecycle key .preDestroy message)

theorem exec_farewell (hs : s.Discreet) {state hook}
    (h : exec (s.lifecycle.fire .preDestroy key state) w = (hook, w')) :
    Aside w w' ∧ ∃ failed, s.Fires ⟨.preDestroy, key, failed⟩ w.outside w'.outside ∧
      Removed key failed (hook.map fun _ => ()) := by
  obtain ⟨haside, ⟨message, rfl, hfires⟩ | ⟨after, rfl, hfires, -⟩⟩ := exec_fire hs h
  · exact ⟨haside, true, hfires, message, rfl⟩
  · exact ⟨haside, false, hfires, rfl⟩

theorem exec_destroy (hs : s.Discreet) {state : Option σ} {r : Except CacheError Unit}
    (h : exec (destroy s key state) w = (r, w')) (d : Desk σ ι) :
    ∃ failed, Removed key failed r ∧ s.Fires ⟨.preDestroy, key, failed⟩ w.outside w'.outside ∧
      w.now.Passes w'.now ∧
      w'.scene d =
        { w.scene d with
          cache := (w.cache.unlink key).countRemoved, now := w'.now, outside := w'.outside } := by
  obtain ⟨hook, w₁, hf, h⟩ := exec_attempt_bind h
  obtain ⟨haside, failed, hfires, hremoved⟩ := exec_farewell hs hf
  obtain ⟨rfl, rfl⟩ : r = hook.map (fun _ => ()) ∧ w' =
      { w₁ with cache := (w₁.cache.unlink key).countRemoved, signals := w₁.signals + 1 } := by
    cases hook <;> cases h <;> exact ⟨rfl, rfl⟩
  refine ⟨failed, hremoved, hfires, haside.passes, World.scene_congr (w := w) ?_ ?_ d⟩
  · exact congrArg (fun c => (Cache.unlink c key).countRemoved) haside.cache
  · exact haside.store

/-- `Op.regain` of a checked-out session: it is ready again, or lost. -/
theorem exec_regain (hs : s.Discreet) {c : Cache σ} {rest : Multiset (Key × σ)}
    (hh : d.handles = (key, state) ::ₘ rest) (hslot : c.slot? key = some slot) (ho : slot.IsOut)
    (hp : slot.removePending = false)
    (hc : w.cache = c.update key fun slot => { slot with held := true })
    {r : Except CacheError Unit} (h : exec (regain s key state .ready) w = (r, w')) :
    (r = .ok () ∧ ∃ state' time, s.Turns .postInvoke key state state' ∧
        (w.now ≤ time ∧ time ≤ w'.now) ∧
        w'.cache = ((c.update key (·.toReady time state')).markIdle w'.now key).promote key ∧
        Path s { w.scene d with cache := c }
          [.fired ⟨.postInvoke, key, false⟩, .returned key state']
          (w'.scene { d with handles := rest })) ∨
      ∃ message, r = .error (.lifecycle key .postInvoke message) ∧ w'.cache.slot? key = none ∧
        Path s { w.scene d with cache := c } [.fired ⟨.postInvoke, key, true⟩, .lost key]
          (w'.scene { d with handles := rest }) := by
  obtain ⟨r₁, w₁, hf, h⟩ := exec_attempt_bind h
  obtain ⟨haside, ⟨message, rfl, hfires⟩ | ⟨after, rfl, hfires, hturns⟩⟩ := exec_fire hs hf
  · obtain ⟨rfl, hd⟩ := exec_then_throw (fun h => (exec_forceRemove h d).1) h
    obtain ⟨-, hdiscards, hscene⟩ := exec_forceRemove hd { d with handles := rest }
    have hunlink : w₁.cache.unlink key = c.unlink key := by
      rw [haside.cache, hc]
      exact c.unlink_update key fun _ => rfl
    rw [World.scene_aside haside] at hdiscards hscene
    rw [hscene, hunlink]
    exact .inr ⟨message, rfl, slot?_forceRemove hd, (haside.passes.path rfl).quietly
      (.one (.loseOut hh hslot ho hp hdiscards (.one hfires)))⟩
  · dsimp only at h
    rw [exec_bind_ok (exec_now _), exec_bind_ok (exec_modifyCache _ _), exec_bind_ok (exec_lock s _),
      exec_bind_ok (exec_modifyCache _ _), exec_bind_ok (exec_modifyUsage _ _), exec_signal] at h
    have hupdate : w₁.cache.update key (fun slot =>
        { slot with payload := some (after.getD state), stage := .ready, lastAccess := w₁.now,
                    held := false }) =
        c.update key (·.toReady w₁.now (after.getD state)) := by
      rw [haside.cache, hc, Cache.update_update]
      rfl
    rw [hupdate] at h
    have hlock :=
      (hs.lock { w₁ with cache := c.update key (·.toReady w₁.now (after.getD state)) }).passes
    obtain ⟨rfl, hcache, hstore, hnow, hout⟩ : r = .ok () ∧
        w'.cache = ((c.update key (·.toReady w₁.now (after.getD state))).markIdle
          w'.now key).promote key ∧
        w'.store = w₁.store ∧ w₁.now.Passes w'.now ∧ w'.outside = w₁.outside := by
      cases h
      exact ⟨rfl, Cache.markIdle_promote _ _ _ _, rfl, hlock, rfl⟩
    refine .inl ⟨rfl, after.getD state, w₁.now, hturns state rfl, ⟨haside.now, hnow.1⟩, hcache, ?_⟩
    rw [World.scene_congr hcache (hstore.trans haside.store), hout]
    have hpath : Path s { w.scene d with cache := c } _ _ :=
      ((haside.passes.trans hnow).path rfl).quietly
        (.one (.giveIn hh hslot ho hp (hturns state rfl) hnow.1 (.one hfires)))
    exact hpath.still (.one (.promote key))

/-- `Op.finish` of a checked-out session: it is ready again, or removed if `removePending`, or
lost. -/
theorem exec_finish (hs : s.Discreet) {rest : Multiset (Key × σ)}
    (hh : d.handles = (key, state) ::ₘ rest) (hslot : w.cache.slot? key = some slot)
    (ho : slot.IsOut) {r : Except CacheError Unit} (h : exec (finish s key state) w = (r, w')) :
    (slot.removePending = true ∧ ∃ failed, Removed key failed r ∧ w'.cache.slot? key = none ∧
        Path s (w.scene d) [.fired ⟨.preDestroy, key, failed⟩, .removed key]
          (w'.scene { d with handles := rest })) ∨
      (slot.removePending = false ∧ r = .ok () ∧ ∃ state' time,
        s.Turns .postInvoke key state state' ∧ (w.now ≤ time ∧ time ≤ w'.now) ∧
        w'.cache = ((w.cache.update key (·.toReady time state')).markIdle w'.now key).promote key ∧
        Path s (w.scene d) [.fired ⟨.postInvoke, key, false⟩, .returned key state']
          (w'.scene { d with handles := rest })) ∨
      (slot.removePending = false ∧ ∃ message, r = .error (.lifecycle key .postInvoke message) ∧
        w'.cache.slot? key = none ∧
        Path s (w.scene d) [.fired ⟨.postInvoke, key, true⟩, .lost key]
          (w'.scene { d with handles := rest })) := by
  rw [finish, exec_bind_ok (exec_cache _), hslot] at h
  dsimp only at h
  rw [ho.held, if_neg Bool.false_ne_true,
    exec_bind_ok (exec_step (by rw [ho.stage]; rfl) w), exec_bind_ok (exec_modifyCache _ _)] at h
  cases hp : slot.removePending with
  | true =>
    rw [hp, if_pos rfl] at h
    obtain ⟨failed, hr, hfires, hpasses, hscene⟩ := exec_destroy hs h { d with handles := rest }
    have hunlink : (w.cache.update key fun slot => { slot with held := true }).unlink key =
        w.cache.unlink key := w.cache.unlink_update key fun _ => rfl
    dsimp only at hscene
    have hcache : w'.cache = (Cache.unlink _ key).countRemoved := congrArg Scene.cache hscene
    refine .inl ⟨rfl, failed, hr, hcache ▸ Cache.unlink_self _ _, ?_⟩
    rw [hscene, hunlink]
    exact (hpasses.path rfl).quietly (.one (.leaveOut hh hslot ho hp (.one hfires)))
  | false =>
    rw [hp, if_neg Bool.false_ne_true] at h
    have hregain := exec_regain (c := w.cache) hs hh hslot ho hp rfl h
    obtain ⟨rfl, state', hturns, hcache, hpath⟩ | ⟨message, rfl, hnone, hpath⟩ := hregain
    · exact .inr (.inl ⟨rfl, rfl, state', hturns, hcache, hpath⟩)
    · exact .inr (.inr ⟨rfl, message, rfl, hnone, hpath⟩)

/-! ## Removing -/

/-- What `Op.removePassivated` of a key without a slot comes to, by its answer. -/
inductive Erased (s : Surroundings σ ι ω) (key : Key) (x : Scene σ ι ω) :
    Except CacheError Unit → Scene σ ι ω → Prop where
  /-- There is no record. -/
  | missed (hr : x.contents key = none) : Erased s key x (.ok ()) x
  /-- The record does not decode, and was deleted. -/
  | spoiled {y : Scene σ ι ω} (h : Path s x [.spoiled key] y) : Erased s key x (.ok ()) y
  /-- `.preDestroy` ran, and the record was deleted. -/
  | removed {y : Scene σ ι ω} {failed : Bool} {r : Except CacheError Unit}
      (hc : x.contents key ≠ none)
      (h : Path s x [.fired ⟨.preDestroy, key, failed⟩, .removed key] y)
      (hr : Removed key failed r) : Erased s key x r y
  /-- `.preDestroy` ran, and the record could not be deleted. -/
  | refused {y : Scene σ ι ω} {failed : Bool} {e : StoreError}
      (h : Path s x [.fired ⟨.preDestroy, key, failed⟩] y) : Erased s key x (.error (.store e)) y
  /-- A call of the backend failed before `.preDestroy`. -/
  | failed {e : StoreError} : Erased s key x (.error (.store e)) x

theorem exec_removePassivated (hs : s.Discreet) (hslot : w.cache.slot? key = none)
    (hu : w.cache.usage.find? key = none) {r : Except CacheError Unit}
    (h : exec (removePassivated s key) w = (r, w')) (d : Desk σ ι) :
    Erased s key (w.scene d) r (w'.scene d) := by
  have hunlink : (w.cache.link key (placeholder w)).unlink key = w.cache :=
    Cache.unlink_link hslot hu rfl
  rw [removePassivated, exec_bind_ok (exec_linkPlaceholder _ _)] at h
  obtain ⟨answer, w₁, hread, h⟩ := exec_attempt_bind h
  have hcache : w₁.cache = w.cache.link key (placeholder w) := by
    rw [exec_onStore] at hread
    cases hread
    rfl
  obtain ⟨bytes, state, rfl, hc, hb, hscene⟩ | ⟨rfl, hc, hscene⟩ | ⟨bytes, fault, rfl, hc, hb, hscene⟩ |
    ⟨e, rfl, hscene⟩ := exec_readRecord hread d
  · obtain ⟨hook, w₂, hf, h⟩ := exec_attempt_bind h
    obtain ⟨haside, failed, hfires, hremoved⟩ := exec_farewell hs hf
    obtain ⟨answer, w₃, hd, h⟩ := exec_attempt_bind h
    obtain ⟨hscene₃, hcases⟩ := exec_removeRecord hd d
    rw [World.scene_aside haside, hscene] at hscene₃
    rw [haside.store] at hcases
    have hstore : w₁.store.contents = w.store.contents := congrArg Scene.contents hscene
    have hout : w₁.outside = w.outside := congrArg Scene.outside hscene
    have hnow : w₁.now = w.now := congrArg Scene.now hscene
    have hbegin : Path s (w.scene d) [] { w.scene d with now := w₂.now } :=
      (hnow ▸ haside.passes).path rfl
    have hcache₃ : w₃.cache.unlink key = w.cache := by
      rw [show w₃.cache = w.cache.link key (placeholder w) from congrArg Scene.cache hscene₃, hunlink]
    rw [hstore] at hcases
    rw [hout] at hfires
    obtain ⟨found, rfl, hm, -⟩ | ⟨e, rfl, hm, hrefused⟩ := hcases
    · obtain ⟨rfl, hw'⟩ : r = hook.map (fun _ => ()) ∧ w'.scene d =
          { w₃.scene d with cache := (w₃.cache.unlink key).countRemoved } := by
        cases hook <;> cases h <;> exact ⟨rfl, rfl⟩
      rw [hw', hcache₃, hscene₃, hm]
      exact .removed (hc.trans_ne (Option.some_ne_none _))
        (hbegin.quietly (.one (.erase hslot hc hb (.one hfires)))) hremoved
    · obtain ⟨rfl, rfl⟩ := exec_abandon h
      have hw' : ({ w₃ with cache := w₃.cache.unlink key, signals := w₃.signals + 1 } :
          World σ ω).scene d = { w₃.scene d with cache := w₃.cache.unlink key } := rfl
      rw [hw', hcache₃, hscene₃, hm]
      refine .refused (hbegin.quietly (.one (.attend [⟨.preDestroy, key, failed⟩] ?_ (.one hfires))))
      have hne : w.store.contents key ≠ none := by
        rw [show w.store.contents key = some bytes from hc]
        exact Option.some_ne_none _
      obtain ⟨n, hn⟩ := hrefused hne
      intro f hf
      obtain rfl := List.mem_singleton.mp hf
      have hfault := congrFun (congrFun (congrArg Scene.fault hscene) n) (.delete key)
      exact ⟨.inl ⟨hslot, hne⟩, fun _ => ⟨n, hfault.symm.trans_ne hn⟩⟩
  · obtain ⟨rfl, hw'⟩ : r = .ok () ∧ w'.scene d =
        { w₁.scene d with cache := w₁.cache.unlink key } := by
      cases h
      exact ⟨rfl, rfl⟩
    rw [hw', hscene, hcache, hunlink]
    exact .missed hc
  · rw [exec_bind_ok (exec_unlink _ _), exec_modifyCounters] at h
    obtain ⟨rfl, hw'⟩ : r = .ok () ∧ w'.scene d =
        { w₁.scene d with cache := (w₁.cache.unlink key).countRemoved } := by
      cases h
      exact ⟨rfl, rfl⟩
    rw [hw', hscene, hcache, hunlink]
    exact .spoiled (.one (.spoil hslot hc hb))
  · obtain ⟨rfl, rfl⟩ := exec_abandon h
    have hw' : ({ w₁ with cache := w₁.cache.unlink key, signals := w₁.signals + 1 } :
        World σ ω).scene d = { w₁.scene d with cache := w₁.cache.unlink key } := rfl
    rw [hw', hscene, hcache, hunlink]
    exact .failed

/-- What `Op.remove` comes to, by the slot of `key`. -/
inductive Dropped (s : Surroundings σ ι ω) (key : Key) (x : Scene σ ι ω) :
    Except CacheError Unit → Scene σ ι ω → Prop where
  /-- No slot: `Op.removePassivated`. -/
  | absent {y : Scene σ ι ω} {r : Except CacheError Unit} (hslot : x.cache.slot? key = none)
      (h : Erased s key x r y) : Dropped s key x r y
  /-- Ready: `.preDestroy` ran, and the slot is gone. -/
  | ready {y : Scene σ ι ω} {r : Except CacheError Unit} {slot : Slot σ} {state : σ} {failed : Bool}
      (hslot : x.cache.slot? key = some slot) (hr : slot.IsReady state)
      (h : Path s x [.fired ⟨.preDestroy, key, failed⟩, .removed key] y)
      (hremoved : Removed key failed r) : Dropped s key x r y
  /-- Checked out: `removePending` is set. -/
  | out {y : Scene σ ι ω} {slot : Slot σ} (hslot : x.cache.slot? key = some slot) (ho : slot.IsOut)
      (h : Path s x [.deferred key] y) : Dropped s key x (.ok ()) y
  /-- The slot is `held`. -/
  | stalled : Dropped s key x (.error .stalled) x

theorem exec_remove (hs : s.Discreet) (hx : Sound s (w.scene d)) {r : Except CacheError Unit}
    (h : exec (remove s key) w = (r, w')) : Dropped s key (w.scene d) r (w'.scene d) := by
  rw [remove] at h
  cases hpatience : s.patience with
  | zero =>
    rw [hpatience] at h
    cases h
    exact .stalled
  | succ looks =>
    rw [hpatience, removeLooking, exec_bind_ok (exec_cache _)] at h
    cases hslot : w.cache.slot? key with
    | none =>
      rw [hslot] at h
      exact .absent hslot (exec_removePassivated hs hslot (hx.at_none hslot).1 h d)
    | some slot =>
      rw [hslot] at h
      dsimp only at h
      obtain ⟨state, hr⟩ | ho | hp := hx.kinds hslot
      · rw [hr.held, if_neg Bool.false_ne_true, hr.stage, hr.payload] at h
        dsimp only at h
        rw [exec_bind_ok (exec_step rfl w), exec_bind_ok (exec_modifyCache _ _)] at h
        obtain ⟨failed, hremoved, hfires, hpasses, hscene⟩ := exec_destroy hs h d
        have hunlink : (w.cache.update key fun slot =>
            { slot with payload := none, held := true }).unlink key = w.cache.unlink key :=
          unlink_takeOut _
        dsimp only at hscene
        rw [hscene, hunlink]
        exact .ready hslot hr ((hpasses.path rfl).quietly (.one (.leave hslot hr (.one hfires)))) hremoved
      · rw [ho.held, if_neg Bool.false_ne_true, ho.stage] at h
        cases h
        exact .out hslot ho (.one (.defer hslot ho))
      · rw [hp.held, if_pos rfl] at h
        cases h
        exact .stalled

theorem exec_removeOnFinish (hslot : w.cache.slot? key = some slot) (ho : slot.IsOut)
    {r : Except CacheError Unit} (h : exec (removeOnFinish key) w = (r, w')) :
    r = .ok () ∧ Path s (w.scene d) [.deferred key] (w'.scene d) := by
  cases h
  exact ⟨rfl, .one (.defer hslot ho)⟩

/-! ## Asking for sessions in memory, and looking -/

/-- What `Op.get` of a key with a slot comes to, by its answer. -/
inductive Fetched (s : Surroundings σ ι ω) (d : Desk σ ι) (key : Key) (x : Scene σ ι ω)
    (w' : World σ ω) : Except CacheError σ → Prop where
  /-- The slot is ready: the caller gets what `.preInvoke` makes of the state. -/
  | ok {slot : Slot σ} {state state' : σ} (hslot : x.cache.slot? key = some slot)
      (hr : slot.IsReady state)
      (h : Path s x [.fired ⟨.preInvoke, key, false⟩, .checkedOut key state']
        (w'.scene { d with handles := (key, state') ::ₘ d.handles })) :
      Fetched s d key x w' (.ok state')
  /-- The slot is ready and `.preInvoke` failed: the session is lost. -/
  | lost {message : String}
      (h : Path s x [.fired ⟨.preInvoke, key, true⟩, .lost key] (w'.scene d)) :
      Fetched s d key x w' (.error (.lifecycle key .preInvoke message))
  /-- The slot is checked out. -/
  | inUse {slot : Slot σ} (hslot : x.cache.slot? key = some slot) (ho : slot.IsOut)
      (h : Path s x [] (w'.scene d)) : Fetched s d key x w' (.error (.inUse key))
  /-- The slot is `held`. -/
  | stalled (h : Path s x [] (w'.scene d)) : Fetched s d key x w' (.error .stalled)

/-- `Op.get` of a key with a slot answers `.stalled`, or moves the slot in front and goes on with
`Op.checkOut` or `.inUse`. -/
theorem exec_get_cases (hx : Sound s (w.scene d)) (hslot : w.cache.slot? key = some slot)
    {r : Except CacheError σ} (h : exec (get s key) w = (r, w')) :
    (r = .error .stalled ∧ w' = w) ∨
      (w' = { w with cache := w.cache.promote key } ∧
        (slot.IsOut ∧ r = .error (.inUse key) ∨ slot.IsPlaceholder ∧ r = .error .stalled)) ∨
      ∃ state, slot.IsReady state ∧
        exec (checkOut s key) { w with cache := w.cache.promote key } = (r, w') := by
  rw [get] at h
  cases hpatience : s.patience with
  | zero =>
    rw [hpatience] at h
    cases h
    exact .inl ⟨rfl, rfl⟩
  | succ looks =>
    rw [hpatience, getLooking, exec_bind_ok (exec_modifyCache _ _),
      exec_bind_ok (exec_cache _)] at h
    have hslot' : (w.cache.promote key).slot? key = some slot :=
      (Cache.slot?_promote w.cache key key).trans hslot
    dsimp only at h
    rw [hslot'] at h
    dsimp only at h
    obtain ⟨state, hr⟩ | ho | hp := hx.kinds hslot
    · rw [hr.held, if_neg Bool.false_ne_true, hr.stage] at h
      exact .inr (.inr ⟨state, hr, h⟩)
    · rw [ho.held, if_neg Bool.false_ne_true, ho.stage] at h
      cases h
      exact .inr (.inl ⟨rfl, .inl ⟨ho, rfl⟩⟩)
    · rw [hp.held, if_pos rfl] at h
      cases h
      exact .inr (.inl ⟨rfl, .inr ⟨hp, rfl⟩⟩)

theorem exec_get (hs : s.Discreet) (hx : Sound s (w.scene d)) (hslot : w.cache.slot? key = some slot)
    {r : Except CacheError σ} (h : exec (get s key) w = (r, w')) :
    Fetched s d key (w.scene d) w' r := by
  have hpromote : Path s (w.scene d) [] { w.scene d with cache := w.cache.promote key } :=
    .one (.promote key)
  obtain ⟨rfl, rfl⟩ | ⟨rfl, ⟨ho, rfl⟩ | ⟨hp, rfl⟩⟩ | ⟨state, hr, h⟩ := exec_get_cases hx hslot h
  · exact .stalled .nil
  · exact .inUse hslot ho hpromote
  · exact .stalled hpromote
  · have hslot' : (w.cache.promote key).slot? key = some slot :=
      (Cache.slot?_promote w.cache key key).trans hslot
    obtain ⟨state', rfl, -, -, hpath⟩ | ⟨message, rfl, -, hpath⟩ :=
      exec_checkOut (d := d) hs rfl hslot' hr.stage hr.payload hslot' hr h
    · exact .ok hslot hr (hpromote.quietly hpath)
    · exact .lost (hpromote.quietly hpath)

/-- `Op.peek` keeps the scene, and answers what the slot or the record says. -/
theorem exec_peek {r : Except CacheError EntryInfo} (h : exec (peek s key) w = (r, w')) (d : Desk σ ι) :
    w'.scene d = w.scene d ∧
      ((∃ slot, w.cache.slot? key = some slot ∧
          (slot.held = true ∧ r = .error .stalled ∨
            slot.held = false ∧ r = .ok (slot.info s.codec w.now key))) ∨
        w.cache.slot? key = none ∧
          ((∃ snapshot, r = .ok ⟨key, .passivated, none, false, snapshot⟩ ∧
              w.store.contents key ≠ none) ∨
            (r = .error (.notFound key) ∧ w.store.contents key = none) ∨
            ∃ e, r = .error (.store e))) := by
  rw [peek, exec_bind_ok (exec_cache _)] at h
  cases hslot : w.cache.slot? key with
  | some slot =>
    rw [hslot] at h
    dsimp only at h
    split at h
    · rename_i hheld
      cases h
      exact ⟨rfl, .inl ⟨slot, rfl, .inl ⟨hheld, rfl⟩⟩⟩
    · rename_i hheld
      rw [exec_bind_ok (exec_now _)] at h
      cases h
      exact ⟨rfl, .inl ⟨slot, rfl, .inr ⟨by simpa using hheld, rfl⟩⟩⟩
  | none =>
    rw [hslot] at h
    dsimp only at h
    obtain ⟨answer, w₁, hq, h⟩ := exec_attempt_bind h
    rw [exec_onStore] at hq
    rcases hr : exec (Store.inspect key) w.store with ⟨r₁, store⟩
    obtain ⟨hgate, hcontents, hcases⟩ := Store.exec_inspect hr
    have hscene : ({ w with store } : World σ ω).scene d = w.scene d :=
      (World.scene_store hgate d).trans (by rw [hcontents]; rfl)
    rw [hr] at hq
    cases hq
    obtain ⟨bytes, value, rfl, hc, -⟩ | ⟨rfl, hc⟩ | ⟨bytes, fault, rfl, hc, -⟩ | ⟨e, rfl⟩ := hcases
    · cases h
      exact ⟨hscene, .inr ⟨rfl, .inl ⟨_, rfl, by rw [hc]; exact Option.some_ne_none _⟩⟩⟩
    · cases h
      exact ⟨hscene, .inr ⟨rfl, .inr (.inl ⟨rfl, hc⟩)⟩⟩
    · cases h
      exact ⟨hscene, .inr ⟨rfl, .inl ⟨_, rfl, by rw [hc]; exact Option.some_ne_none _⟩⟩⟩
    · cases h
      exact ⟨hscene, .inr ⟨rfl, .inr (.inr ⟨e, rfl⟩)⟩⟩

theorem exec_contains {r : Except CacheError Bool} (h : exec (contains key) w = (r, w'))
    (d : Desk σ ι) :
    w'.scene d = w.scene d ∧
      (r = .ok (w.cache.isLinked key || (w.store.contents key).isSome) ∨
        w.cache.slot? key = none ∧ ∃ e, r = .error (.store e)) := by
  rw [contains, exec_bind_ok (exec_cache _)] at h
  split at h
  · rename_i hlinked
    cases h
    exact ⟨rfl, .inl (by rw [hlinked, Bool.true_or])⟩
  · rename_i hlinked
    have hslot : w.cache.slot? key = none := by
      simpa [Cache.isLinked] using hlinked
    rw [exec_onStore] at h
    rcases hr : exec (Store.holds key) w.store with ⟨r₁, store⟩
    obtain ⟨hgate, hcontents, hcases⟩ := Store.exec_holds hr
    have hscene : ({ w with store } : World σ ω).scene d = w.scene d :=
      (World.scene_store hgate d).trans (by rw [hcontents]; rfl)
    rw [hr] at h
    cases h
    refine ⟨hscene, ?_⟩
    obtain rfl | ⟨e, rfl⟩ := hcases
    · exact .inl (by rw [Bool.eq_false_of_not_eq_true hlinked, Bool.false_or])
    · exact .inr ⟨hslot, e, rfl⟩

end Op

end SessionCache
