import SessionCache.Proofs.Atomicity
import SessionCache.Proofs.Traffic.Departing
import SessionCache.Proofs.Traffic.Serving

/-!
# Operations that nobody comes in between

While nobody else does anything, an operation that looks for room passivates ready sessions, one
after the other, and lets time pass (`Interlude`). A key that is not ready is not touched by this,
and records are only written for the sessions that leave memory.

* `Interlude.sound`, `Interlude.spares`, `Interlude.records`: what an interlude does.
* `Op.exec_acquire_alone`: the search for room is an interlude, and its end.
* `Op.exec_activate_alone`: a session is brought back, as far as the search for room goes.
* `Op.exec_settle_loaded`: what comes of a session for which there is room, by what loading it
  answers.
* `Op.exec_get_of_record`, `Op.exec_get_of_spoiled`: while there is room, a session whose record can
  be read comes back, and one whose record cannot be read is lost; `Run.thenLose`: as steps of a run.
-/

namespace SessionCache

variable {σ ι ω : Type} {s : Surroundings σ ι ω} {d : Desk σ ι} {w w₁ w' : World σ ω} {key k : Key}
  {slot : Slot σ} {state : σ}

/-- `Store.holds key` of a store that `Serves` answers whether there is a record, and changes
nothing. -/
theorem Store.Serves.exec_holds {store : Store} (h : store.Serves) (key : Key) :
    ∃ store', exec (holds key) store = (.ok (store.contents key).isSome, store') ∧
      store'.Serves ∧ store'.contents = store.contents := by
  rcases hq : exec (holds key) store with ⟨r, store'⟩
  obtain ⟨-, hcontents, rfl | ⟨e, rfl⟩⟩ := Store.exec_holds hq
  · exact ⟨store', rfl, h.moves ((keeps_holds key).at hq), hcontents⟩
  · obtain ⟨-, -, found, hfound⟩ := h store .refl key
    rw [holds, exec_lifted, hfound] at hq
    cases congrArg Prod.fst hq

/-- `s.wait` lets only time pass. -/
def Surroundings.Alone (s : Surroundings σ ι ω) : Prop := ∀ d w, Aside w ((s.wait d).run w).2

/-- Time passes, and `Op.passivate` runs for ready sessions, in any order. -/
inductive Interlude (s : Surroundings σ ι ω) : World σ ω → World σ ω → Prop where
  | nil {w : World σ ω} : Interlude s w w
  | pause {w w₁ w' : World σ ω} (h : Aside w w₁) (h' : Interlude s w₁ w') : Interlude s w w'
  | evict {w w₁ w' : World σ ω} {key : Key} {slot : Slot σ} {state : σ} {r : Except CacheError Unit}
      (hslot : w.cache.slot? key = some slot) (hr : slot.IsReady state)
      (h : exec (Op.passivate s key) w = (r, w₁)) (h' : Interlude s w₁ w') : Interlude s w w'

/-! ## What an interlude does -/

/-- `Op.passivate` of a ready session keeps the slots and the records of other keys. -/
theorem Op.exec_passivate_spares (hs : s.Discreet) (hslot : w.cache.slot? key = some slot)
    (hr : slot.IsReady state) {r : Except CacheError Unit}
    (h : exec (passivate s key) w = (r, w')) (hne : key ≠ k) :
    w'.cache.slot? k = w.cache.slot? k ∧ w'.store.contents k = w.store.contents k :=
  (exec_departed hs hslot hr h {}).2.spares hne

namespace Interlude

theorem sound (hs : s.Discreet) (h : Interlude s w w') (hx : Sound s (w.scene d)) :
    Sound s (w'.scene d) := by
  induction h with
  | nil => exact hx
  | pause h _ ih => exact ih (hx.aside h)
  | evict hslot hr hp _ ih =>
    obtain ⟨ds, hparted⟩ := Op.exec_passivate (d := d) hs hslot hr hp
    exact ih (hparted.path.sound hx)

theorem tidy (hs : s.Discreet) (h : Interlude s w w') (hx : Sound s (w.scene d))
    (ht : (w.scene d).Tidy) : (w'.scene d).Tidy := by
  induction h with
  | nil => exact ht
  | pause h _ ih =>
    refine ih (hx.aside h) fun k => ?_
    obtain ⟨p, hp⟩ := ht k
    exact ⟨p, hp.aside h⟩
  | evict hslot hr hp _ ih =>
    obtain ⟨ds, hparted⟩ := Op.exec_passivate (d := d) hs hslot hr hp
    obtain ⟨ds, hpath, hds, -⟩ := hparted.incident
    exact ih (hpath.sound hx) (hpath.tidy hx (not_tampered_of_incidental hds) ht)

theorem fault (hs : s.Discreet) (h : Interlude s w w') : w'.store.fault = w.store.fault := by
  induction h with
  | nil => rfl
  | pause h _ ih => exact ih.trans (congrArg Store.fault h.store)
  | evict hslot hr hp _ ih =>
    obtain ⟨ds, hparted⟩ := Op.exec_passivate (d := ({} : Desk _ _)) hs hslot hr hp
    exact ih.trans hparted.path.surroundings.2

/-- An `Interlude` keeps the slot and the record of a key that is not ready at the start. -/
theorem spares (hs : s.Discreet) (h : Interlude s w w')
    (hk : ∀ slot, w.cache.slot? k = some slot → slot.stage ≠ .ready) :
    w'.cache.slot? k = w.cache.slot? k ∧ w'.store.contents k = w.store.contents k := by
  induction h with
  | nil => exact ⟨rfl, rfl⟩
  | pause h _ ih =>
    rw [← h.cache, ← h.store]
    exact ih (h.cache ▸ hk)
  | @evict w w₁ w' key slot _ _ hslot hr hp _ ih =>
    have hne : key ≠ k := fun he => hk slot (he ▸ hslot) hr.stage
    obtain ⟨hcache, hcontents⟩ := Op.exec_passivate_spares hs hslot hr hp hne
    rw [← hcache, ← hcontents]
    exact ih (hcache ▸ hk)

/-- A slot that is ready after an `Interlude` was ready before. -/
theorem ready_before (hs : s.Discreet) (h : Interlude s w w') {slot' : Slot σ}
    (hslot : w'.cache.slot? k = some slot') (hready : slot'.stage = .ready) :
    ∃ slot, w.cache.slot? k = some slot ∧ slot.stage = .ready := by
  by_contra hnot
  have hk : ∀ slot, w.cache.slot? k = some slot → slot.stage ≠ .ready := fun slot hslot hr =>
    hnot ⟨slot, hslot, hr⟩
  exact hk slot' ((h.spares hs hk).1 ▸ hslot) hready

/-- An `Interlude` adds a record only for a key that was ready and has no slot at the end. -/
theorem records (hs : s.Discreet) (h : Interlude s w w') (hx : Sound s (w.scene d))
    (ht : (w.scene d).Tidy) (k : Key) :
    w'.store.contents k = w.store.contents k ∨
      w.store.contents k = none ∧ (∃ slot, w.cache.slot? k = some slot ∧ slot.stage = .ready) ∧
        w'.cache.slot? k = none := by
  induction h with
  | nil => exact .inl rfl
  | pause h h' ih =>
    rw [← h.cache, ← h.store]
    exact ih (hx.aside h) ((Interlude.pause h .nil).tidy hs hx ht)
  | @evict w w₁ w' key slot state r hslot hr hp hlater ih =>
    have hfirst : Interlude s w w₁ := .evict hslot hr hp .nil
    obtain hrest := ih (hfirst.sound hs hx) (hfirst.tidy hs hx ht)
    by_cases hne : key = k
    · subst hne
      obtain ⟨p, hlies⟩ := ht key
      obtain ⟨-, hnone⟩ := hlies.of_ready hslot hr
      have hready : ∃ slot, w.cache.slot? key = some slot ∧ slot.stage = .ready :=
        ⟨slot, hslot, hr.stage⟩
      obtain hgone | ⟨hsame, -⟩ := (Op.exec_departed hs hslot hr hp d).2.at_key hslot
      · refine .inr ⟨hnone, hready, ?_⟩
        have hgone : w₁.cache.slot? key = none := hgone
        exact (hlater.spares hs fun slot h => nomatch hgone.symm.trans h).1.trans hgone
      · have hsame : w₁.store.contents = w.store.contents := hsame
        rw [hsame] at hrest
        exact hrest.imp id fun h => ⟨h.1, hready, h.2.2⟩
    · obtain ⟨hcache, hcontents⟩ := Op.exec_passivate_spares hs hslot hr hp hne
      rw [← hcache, ← hcontents]
      exact hrest

end Interlude

/-- An `Interlude` keeps a placeholder and its record. -/
theorem Interlude.placeholder (hs : s.Discreet) (hi : Interlude s w₁ w')
    (h₁ : w₁.scene d = { w.scene d with cache := w.cache.link key (Op.placeholder w) }) :
    w'.cache.slot? key = some (Op.placeholder w) ∧
      w'.store.contents key = w.store.contents key ∧ w'.store.fault = w.store.fault := by
  have hslot₁ : w₁.cache.slot? key = some (Op.placeholder w) := by
    rw [show w₁.cache = w.cache.link key (Op.placeholder w) from congrArg Scene.cache h₁]
    exact Cache.link_self _ _ _
  obtain ⟨hslot₂, hcontents⟩ := hi.spares (k := key) hs fun slot hslot => by
    obtain rfl := Option.some.inj (hslot₁.symm.trans hslot)
    exact nofun
  exact ⟨hslot₂.trans hslot₁, hcontents.trans (congrFun (congrArg Scene.contents h₁) key),
    (hi.fault hs).trans (congrArg Scene.fault h₁)⟩

namespace Op

/-! ## The search for room -/

/-- The errors of `Op.acquire` in `w` where nobody else does anything: an error of capacity, or a
failed callback for a key that is ready in `w`. -/
inductive Roomless (w : World σ ω) : CacheError → Prop where
  | capacity {e : CacheError} (h : e.isCapacity = true) : Roomless w e
  | stalled : Roomless w .stalled
  | lifecycle {k : Key} {slot : Slot σ} {phase : Phase} {message : String}
      (hslot : w.cache.slot? k = some slot) (hready : slot.stage = .ready) :
      Roomless w (.lifecycle k phase message)

theorem Roomless.before (hs : s.Discreet) {e : CacheError} (h : Roomless w₁ e)
    (hi : Interlude s w w₁) : Roomless w e := by
  cases h with
  | capacity h => exact .capacity h
  | stalled => exact .stalled
  | lifecycle hslot hready =>
    obtain ⟨slot, hslot, hready⟩ := hi.ready_before hs hslot hready
    exact .lifecycle hslot hready

/-- The error for a victim that could not be passivated is `Roomless`. -/
theorem Roomless.of_victim (hs : s.Discreet) (hslot : w.cache.slot? key = some slot)
    (hr : slot.IsReady state) {cause : CacheError}
    (h : exec (passivate s key) w = (.error cause, w')) : Roomless w (evictionError key cause) := by
  obtain ⟨hcapacity, -⟩ | ⟨k, phase, message, rfl, heq⟩ := evictionError_cases key cause
  · exact .capacity hcapacity
  · rw [heq]
    obtain rfl : k = key := by
      refine (exec_departed hs hslot hr h {}).2.lifecycle_key ?_ rfl
      rintro time state' failure hfailure k phase message rfl
      obtain ⟨_, he⟩ | ⟨_, he⟩ := Store.writing_error hfailure <;> cases he
    exact .lifecycle hslot hr.stage

/-- `Op.acquire` where nobody else does anything: an `Interlude`, and then a unit of room or a
`Roomless` error. -/
theorem exec_acquire_alone (hs : s.Discreet) (ha : s.Alone) (hx : Sound s (w.scene d))
    {deadline : Deadline} {looks : Nat} {r : Except CacheError Unit}
    (h : exec (acquire s deadline looks) w = (r, w')) :
    (r = .ok () ∧ ∃ w₁, Interlude s w w₁ ∧ w₁.cache.occupied < s.settings.maxSize ∧
        w' = w₁.taken) ∨
      ∃ e, r = .error e ∧ Interlude s w w' ∧ Roomless w e := by
  induction looks generalizing w with
  | zero =>
    cases h
    exact .inr ⟨_, rfl, .nil, .stalled⟩
  | succ looks ih =>
    have hlater : ∀ {w₁}, Interlude s w w₁ → (∀ {w'}, Interlude s w₁ w' → Interlude s w w') →
        exec (acquire s deadline looks) w₁ = (r, w') →
        (r = .ok () ∧ ∃ w₁, Interlude s w w₁ ∧ w₁.cache.occupied < s.settings.maxSize ∧
            w' = w₁.taken) ∨
          ∃ e, r = .error e ∧ Interlude s w w' ∧ Roomless w e := by
      intro w₁ hfirst hthen h
      obtain ⟨hr, w₂, hi, hroom, hw'⟩ | ⟨e, hr, hi, hroomless⟩ := ih (hfirst.sound hs hx) h
      · exact .inl ⟨hr, w₂, hthen hi, hroom, hw'⟩
      · exact .inr ⟨e, hr, hthen hi, hroomless.before hs hfirst⟩
    rw [acquire] at h
    obtain ⟨found, w₁, hlook, h⟩ | ⟨e, hlook, rfl⟩ := exec_bind_cases h
    · obtain ⟨hroom, ⟨⟩, rfl⟩ | ⟨-, victim, answer, hvictim, hp, ⟨rfl, ⟨⟩⟩ | ⟨_, -, ⟨⟩⟩⟩ |
        ⟨-, -, rfl, ⟨_, ⟨⟩, -⟩ | ⟨delay, ⟨⟩⟩⟩ := exec_look_cases hlook
      · cases h
        exact .inl ⟨rfl, w, .nil, hroom, rfl⟩
      · obtain ⟨slot, state, hslot, hr⟩ := ready_of_victim? hx hvictim
        exact hlater (.evict hslot hr hp .nil) (fun hi => .evict hslot hr hp hi) h
      · rw [exec_bind_ok (exec_lift _ _)] at h
        exact hlater (.pause (ha _ _) .nil) (fun hi => .pause (ha _ _) hi) h
    · obtain ⟨-, ⟨⟩, -⟩ | ⟨-, victim, answer, hvictim, hp, ⟨-, ⟨⟩⟩ | ⟨cause, rfl, ⟨⟩⟩⟩ |
        ⟨-, -, rfl, ⟨_, ⟨⟩, hgives⟩ | ⟨_, ⟨⟩⟩⟩ := exec_look_cases hlook
      · obtain ⟨slot, state, hslot, hr⟩ := ready_of_victim? hx hvictim
        exact .inr ⟨_, rfl, .evict hslot hr hp .nil, .of_victim hs hslot hr hp⟩
      · exact .inr ⟨_, rfl, .nil, .capacity hgives.isCapacity⟩

/-! ## Bringing a session back -/

/-- What `Op.activate` of a key without a slot comes to where nobody else does anything, by its
answer. -/
inductive Summoned (s : Surroundings σ ι ω) (d : Desk σ ι) (key : Key) (w w' : World σ ω) :
    Except CacheError Unit → Prop where
  /-- There is no record. -/
  | absent (hr : w.store.contents key = none) (hw : w'.scene d = w.scene d) :
      Summoned s d key w w' (.error (.notFound key))
  /-- A call of the backend failed in `Op.announce`. -/
  | unheard {e : StoreError} (hw : w'.scene d = w.scene d) :
      Summoned s d key w w' (.error (.store e))
  /-- `Op.reserve` failed after an `Interlude`. -/
  | roomless {w₁ w₂ : World σ ω} {e : CacheError}
      (h₁ : w₁.scene d = { w.scene d with cache := w.cache.link key (placeholder w) })
      (hi : Interlude s w₁ w₂) (he : Roomless w e)
      (hw : w'.scene d = { w₂.scene d with cache := w₂.cache.unlink key })
      (hx : Sound s (w'.scene { d with known := insert key d.known })) :
      Summoned s d key w w' (.error e)
  /-- `Op.reserve` succeeded after an `Interlude`, and `Op.settle` followed. -/
  | settled {w₁ w₂ : World σ ω} {r : Except CacheError Unit}
      (h₁ : w₁.scene d = { w.scene d with cache := w.cache.link key (placeholder w) })
      (hi : Interlude s w₁ w₂) (hw : exec (settle s key) w₂.taken = (r, w'))
      (hx : Sound s (w₂.taken.scene
        { d with tasks := .settling key ::ₘ d.tasks, known := insert key d.known })) :
      Summoned s d key w w' r

theorem exec_activate_alone (hs : s.Discreet) (ha : s.Alone) (hx : Sound s (w.scene d))
    (hslot : w.cache.slot? key = none) {r : Except CacheError Unit}
    (h : exec (activate s key) w = (r, w')) : Summoned s d key w w' r := by
  have hu := (hx.at_none hslot).1
  obtain ⟨⟨⟩, w₁, hannounce, h⟩ | ⟨e, hannounce, rfl⟩ := exec_bind_cases h
  · obtain ⟨-, -, h₁⟩ | ⟨⟨⟩, -⟩ | ⟨_, ⟨⟩, -⟩ := exec_announce hslot hu hannounce d
    let d₁ : Desk σ ι :=
      { d with
        tasks := .fetching key (.ofSettings s.settings w₁.now) ::ₘ d.tasks
        known := insert key d.known }
    have hx₁ : Sound s (w₁.scene d₁) := by
      have hannounced := hx.announce hslot (isPlaceholder w) (.ofSettings s.settings w₁.now)
      have hscene : w₁.scene d₁ =
          { w₁.scene d with tasks := d₁.tasks, known := d₁.known } := rfl
      rw [hscene, h₁]
      exact hannounced
    obtain ⟨answer, w₂, hreserve, h⟩ := exec_attempt_bind h
    rw [reserve, exec_bind_ok (exec_now _)] at hreserve
    obtain ⟨rfl, w₃, hi, hroom, rfl⟩ | ⟨e, rfl, hi, he⟩ := exec_acquire_alone hs ha hx₁ hreserve
    · exact .settled h₁ hi h ((hi.sound hs hx₁).take rfl rfl hroom)
    · obtain ⟨rfl, rfl⟩ := exec_abandon h
      refine .roomless h₁ hi ?_ rfl ((hi.sound hs hx₁).abandon rfl)
      cases he with
      | capacity he => exact .capacity he
      | stalled => exact .stalled
      | @lifecycle k slot phase message hslot' hready =>
        rw [show w₁.cache = w.cache.link key (placeholder w) from congrArg Scene.cache h₁,
          Cache.lookup_link] at hslot'
        split at hslot'
        · obtain rfl := Option.some.inj hslot'
          cases hready
        · exact .lifecycle hslot' hready
  · obtain ⟨⟨⟩, -⟩ | ⟨⟨⟩, hr, hw⟩ | ⟨e, ⟨⟩, hw⟩ := exec_announce hslot hu hannounce d
    · exact .absent hr hw
    · exact .unheard hw

/-- `Op.settle` by the answer of `Op.load`. -/
theorem exec_settle_loaded (hs : s.Discreet) (hslot : w.cache.slot? key = some slot)
    {r : Except CacheError Unit} (h : exec (settle s key) w = (r, w')) (d : Desk σ ι) :
    ∃ answer now y,
      Loaded s key { w.scene d with
        cache := w.cache.update key fun slot => { slot with reserved := true }, now } answer y ∧
      w'.store.contents = y.contents ∧
      ((∃ state time, answer = .ok state ∧ r = .ok () ∧
          w'.cache.slot? key = some (slot.toHeld time state)) ∨
        ∃ failure, answer = .error failure ∧ r = .error failure) := by
  rw [settle, exec_bind_ok (exec_step rfl _), exec_bind_ok (exec_modifyCache _ _)] at h
  obtain ⟨answer, w₁, hl, h⟩ := exec_attempt_bind h
  obtain ⟨-, hloaded⟩ := exec_load hs hl d
  refine ⟨answer, w₁.now, w₁.scene d, hloaded, ?_⟩
  generalize hy : w₁.scene d = y at hloaded
  cases answer with
  | error failure =>
    obtain ⟨rfl, rfl⟩ : r = .error failure ∧ w' =
        { w₁ with
          cache := (countSpoiled failure w₁.cache).unlink key, signals := w₁.signals + 1 } := by
      cases failure <;> exact exec_abandon h
    exact ⟨congrArg Scene.contents hy, .inr ⟨failure, rfl, rfl⟩⟩
  | ok state =>
    have hcache : w₁.cache = w.cache.update key fun slot => { slot with reserved := true } := by
      cases hloaded
      exact congrArg Scene.cache hy
    dsimp only at h
    rw [exec_bind_ok (exec_now _), exec_bind_ok (exec_modifyCache _ _), exec_bind_ok (exec_lock s _),
      exec_bind_ok (exec_modifyUsage _ _), exec_modifyCounters, hcache, Cache.update_update] at h
    obtain ⟨rfl, rfl⟩ := Prod.mk.inj h
    exact ⟨congrArg Scene.contents hy, .inl ⟨state, w₁.now, rfl, rfl,
      Cache.update_self hslot (·.toHeld w₁.now state)⟩⟩

end Op

/-! ## Callbacks that do not fail -/

theorem Surroundings.recording_calm {settings : Settings} {codec : Codec σ} {keyOf : Nat → Key} :
    (recording settings codec (fun _ _ => false) keyOf).Calm where
  discreet := recording_discreet
  succeeds _ _ _ h := (recording_fires h).1.symm
  turns _ _ _ _ := recording_turns

theorem Surroundings.Calm.story (hs : s.Calm) {fs : List Firing} {o o' : ω} (h : s.Story fs o o') :
    ∀ f ∈ fs, f.failed = false := by
  intro f hmem
  obtain ⟨o, o', hf⟩ := h.fires f hmem
  exact hs.succeeds f o o' hf

theorem Surroundings.Calm.fire (hs : s.Calm) (phase : Phase) (key : Key) (state? : Option σ)
    (w : World σ ω) :
    ∃ after w', exec (s.lifecycle.fire phase key state?) w = (.ok after, w') ∧ Aside w w' ∧
      ∀ state, state? = some state → after.getD state = state := by
  rcases h : exec (s.lifecycle.fire phase key state?) w with ⟨r, w'⟩
  obtain ⟨haside, ⟨message, rfl, hfires⟩ | ⟨after, rfl, -, hturns⟩⟩ := exec_fire hs.discreet h
  · exact nomatch hs.succeeds _ _ _ hfires
  · exact ⟨after, w', rfl, haside, fun state he => hs.turns _ _ _ _ (hturns state he)⟩

namespace Op

/-- `Op.checkOut` of a ready session with `Calm` callbacks answers its state. -/
theorem exec_checkOut_calm (hs : s.Calm) (hslot : w.cache.slot? key = some slot)
    (hready : slot.stage = .ready) (hstate : slot.payload = some state) :
    ∃ w', exec (checkOut s key) w = (.ok state, w') := by
  rw [checkOut, exec_bind_ok (exec_cache _), hslot]
  dsimp only
  rw [exec_bind_ok (exec_step (by rw [hready]; rfl) w), hstate]
  dsimp only
  rw [exec_bind_ok (exec_modifyCache _ _)]
  obtain ⟨after, w₁, hf, -, hkeep⟩ := hs.fire .preInvoke key (some state)
    { w with cache := w.cache.update key fun slot => { slot with payload := none, held := true } }
  rw [exec_bind_ok (exec_attempt _ _), hf]
  dsimp only
  rw [exec_bind_ok (exec_now _), exec_bind_ok (exec_modifyCache _ _), exec_bind_ok (exec_lock s _),
    exec_bind_ok (exec_modifyUsage _ _), hkeep state rfl]
  exact ⟨_, rfl⟩

/-- `Loaded` with `Calm` callbacks, where there is a record: the answer is its state, or it does not
decode, or the store fails. -/
theorem Loaded.of_record (hs : s.Calm) {x y : Scene σ ι ω} {answer : Except CacheError σ}
    {bytes : ByteArray} (h : Loaded s key x answer y) (hr : x.contents key = some bytes) :
    (∃ state, answer = .ok state ∧ Store.stateOf s.codec key bytes = .ok state) ∨
      (∃ fault, answer = .error (.deserialization key fault) ∧
        Store.stateOf s.codec key bytes = .error fault) ∨
      ∃ e, answer = .error (.store e) := by
  cases h with
  | ok hr' hb ht =>
    obtain rfl := Option.some.inj (hr.symm.trans hr')
    obtain rfl := hs.turns _ _ _ _ ht
    exact .inl ⟨_, rfl, hb⟩
  | lost _ _ _ ho' => exact nomatch hs.story ho' _ List.mem_cons_self
  | spoiled hr' hb =>
    obtain rfl := Option.some.inj (hr.symm.trans hr')
    exact .inr (.inl ⟨_, rfl, hb⟩)
  | missed hr' => exact nomatch hr.symm.trans hr'
  | failed => exact .inr (.inr ⟨_, rfl⟩)

/-- `Op.announce` of a key with a record and no slot links a placeholder, over a store that
`Serves`. -/
theorem exec_announce_of_record (hserves : w.store.Serves) (hr : w.store.contents key ≠ none) :
    ∃ store, exec (announce key) w =
        (.ok (), { w with
          cache := w.cache.link key (placeholder w), stays := w.stays + 1, store }) ∧
      store.Serves ∧ store.contents = w.store.contents := by
  obtain ⟨store, hq, hserves', hcontents⟩ := hserves.exec_holds key
  refine ⟨store, ?_, hserves', hcontents⟩
  rw [announce, exec_bind_ok (exec_linkPlaceholder _ _), exec_bind_ok (exec_attempt _ _),
    exec_onStore, hq, Option.isSome_iff_ne_none.mpr hr]
  rfl

/-- `Op.activate` after `Op.announce` is `Op.settle`, where there is a unit of room. -/
theorem exec_activate_of_room (hp : s.patience ≠ 0) (hannounce : exec (announce key) w = (.ok (), w₁))
    (hroom : w₁.cache.occupied < s.settings.maxSize) :
    exec (activate s key) w = exec (settle s key) w₁.taken := by
  obtain ⟨looks, hlooks⟩ := Nat.exists_eq_succ_of_ne_zero hp
  have hreserve : exec (reserve s) w₁ = (.ok (), w₁.taken) := by
    rw [reserve, exec_bind_ok (exec_now _), hlooks, acquire,
      exec_bind_ok (exec_look_of_room hroom _)]
    rfl
  rw [activate, exec_bind_ok hannounce, exec_bind_ok (exec_attempt _ _), hreserve]

/-- `Op.get` of a key whose record decodes to `state` answers `state`, where there is a unit of
room. -/
theorem exec_get_of_record (hs : s.Calm) (hp : s.patience ≠ 0)
    (hslot : w.cache.slot? key = none) (hserves : w.store.Serves) {bytes : ByteArray}
    (hr : w.store.contents key = some bytes) (hb : Store.stateOf s.codec key bytes = .ok state)
    (hroom : w.cache.occupied < s.settings.maxSize) :
    ∃ w', exec (get s key) w = (.ok state, w') := by
  obtain ⟨store, hannounce, hserves', hcontents⟩ :=
    exec_announce_of_record hserves (hr.trans_ne (Option.some_ne_none _))
  let w₁ : World σ ω :=
    { w with cache := w.cache.link key (placeholder w), stays := w.stays + 1, store }
  have hactivate : exec (activate s key) w = exec (settle s key) w₁.taken :=
    exec_activate_of_room hp hannounce hroom
  rcases hsettle : exec (settle s key) w₁.taken with ⟨r, w₂⟩
  have hslot₁ : w₁.taken.cache.slot? key = some (placeholder w) := Cache.link_self _ _ _
  obtain ⟨answer, now, y, hloaded, -, hend⟩ :=
    exec_settle_loaded hs.discreet hslot₁ hsettle ({} : Desk σ ι)
  have hnostore : ∀ e, r ≠ .error (.store e) :=
    (Steady.settle hs.discreet).at_store (w := w₁.taken) hserves' hsettle
  have hrecord : w₁.taken.store.contents key = some bytes := (congrFun hcontents key).trans hr
  obtain ⟨state', rfl, hb'⟩ | ⟨fault, -, hb'⟩ | ⟨e, rfl⟩ := hloaded.of_record hs hrecord
  · obtain rfl := Except.ok.inj (hb.symm.trans hb')
    obtain ⟨_, time, ⟨⟩, rfl, hheld⟩ | ⟨_, ⟨⟩, -⟩ := hend
    rw [get_of_none hp hslot, exec_bind_ok (hactivate.trans hsettle)]
    exact exec_checkOut_calm hs hheld rfl rfl
  · exact nomatch hb.symm.trans hb'
  · obtain ⟨_, _, ⟨⟩, -⟩ | ⟨_, ⟨⟩, rfl⟩ := hend
    exact (hnostore e rfl).elim

/-- `Op.settle` of a key whose record does not decode deletes it. -/
theorem exec_settle_spoiled (hs : s.Calm) {rest : Multiset (Task ι)}
    (ht : d.tasks = .settling key ::ₘ rest) (hslot : w.cache.slot? key = some slot)
    (hp : slot.IsPlaceholder) (hserves : w.store.Serves) {bytes : ByteArray} {fault : RecordFault}
    (hr : w.store.contents key = some bytes) (hb : Store.stateOf s.codec key bytes = .error fault) :
    ∃ w', exec (settle s key) w = (.error (.deserialization key fault), w') ∧
      w'.cache.slot? key = none ∧ w'.store.contents key = none ∧
      Path s (w.scene d) [.fired ⟨.preActivate, key, false⟩, .spoiled key]
        (w'.scene { d with tasks := rest }) := by
  rcases hsettle : exec (settle s key) w with ⟨r, w'⟩
  obtain ⟨answer, now, y, hloaded, hcontents, hend⟩ := exec_settle_loaded hs.discreet hslot hsettle d
  have hnostore : ∀ e, r ≠ .error (.store e) :=
    (Steady.settle hs.discreet).at_store hserves hsettle
  obtain ⟨state, -, hb'⟩ | ⟨fault', rfl, hb'⟩ | ⟨e, rfl⟩ := hloaded.of_record hs hr
  · exact nomatch hb.symm.trans hb'
  · obtain rfl := Except.error.inj (hb.symm.trans hb')
    obtain ⟨_, _, ⟨⟩, -⟩ | ⟨_, ⟨⟩, rfl⟩ := hend
    obtain ⟨_, _, ⟨⟩, -⟩ | ⟨_, ds, ⟨⟩, hnone, hfallen, hpath⟩ :=
      exec_settle hs.discreet ht hslot hp hsettle
    cases hfallen
    refine ⟨w', rfl, hnone, ?_, hpath⟩
    rw [hcontents]
    cases hloaded
    exact Function.update_self ..
  · obtain ⟨_, _, ⟨⟩, -⟩ | ⟨_, ⟨⟩, rfl⟩ := hend
    exact (hnostore e rfl).elim

/-- `Op.get` of a key whose record does not decode answers `.deserialization`, where there is a unit
of room. -/
theorem exec_get_of_spoiled (hs : s.Calm) (hp : s.patience ≠ 0)
    (hslot : w.cache.slot? key = none) (hserves : w.store.Serves) {bytes : ByteArray}
    {fault : RecordFault} (hr : w.store.contents key = some bytes)
    (hb : Store.stateOf s.codec key bytes = .error fault)
    (hroom : w.cache.occupied < s.settings.maxSize) :
    ∃ w', exec (get s key) w = (.error (.deserialization key fault), w') ∧
      w'.cache.slot? key = none ∧ w'.store.contents key = none := by
  obtain ⟨store, hannounce, hserves', hcontents⟩ :=
    exec_announce_of_record hserves (hr.trans_ne (Option.some_ne_none _))
  let w₁ : World σ ω :=
    { w with cache := w.cache.link key (placeholder w), stays := w.stays + 1, store }
  let d : Desk σ ι := { tasks := .settling key ::ₘ 0 }
  have htasks : d.tasks = .settling key ::ₘ 0 := rfl
  obtain ⟨w₂, hsettle, hnone, hgone, -⟩ := exec_settle_spoiled (w := w₁.taken) hs htasks
    (Cache.link_self _ _ _) (isPlaceholder w) hserves' ((congrFun hcontents key).trans hr) hb
  have hactivate : exec (activate s key) w = exec (settle s key) w₁.taken :=
    exec_activate_of_room hp hannounce hroom
  exact ⟨w₂, by rw [get_of_none hp hslot, exec_bind_error (hactivate.trans hsettle)], hnone, hgone⟩

end Op

open Op in
/-- `get key` of a key whose record does not decode, as three steps of a run: the answer is
`.deserialization`, and the record is gone. -/
theorem Run.thenLose {log : ω → List Firing} {t t' : Traffic σ ι ω}
    {events : List (Traffic.Event σ ι)} {bytes : ByteArray} {fault : RecordFault} (hs : s.Calm)
    (hlog : s.Logs log) (h : Run s t events t') (hserves : t'.world.store.Serves)
    (hslot : t'.world.cache.slot? key = none) (hr : t'.world.store.contents key = some bytes)
    (hb : Store.stateOf s.codec key bytes = .error fault)
    (hroom : t'.world.cache.occupied < s.settings.maxSize) :
    ∃ t'', Run s t (events ++ [.quiet] ++ [.quiet] ++
        [.answered (.get key) (.error (.deserialization key fault))]) t'' ∧
      t''.Gone key ∧ log t''.world.outside = log t'.world.outside ++ [⟨.preActivate, key, false⟩] := by
  obtain ⟨store, hannounce, hserves', hcontents⟩ :=
    exec_announce_of_record hserves (hr.trans_ne (Option.some_ne_none _))
  obtain ⟨w₁, hw₁⟩ : ∃ w₁ : World σ ω, { t'.world with
      cache := t'.world.cache.link key (placeholder t'.world), stays := t'.world.stays + 1, store } =
        w₁ := ⟨_, rfl⟩
  rw [hw₁] at hannounce
  let d : Desk σ ι := { tasks := .settling key ::ₘ 0 }
  have htasks : d.tasks = .settling key ::ₘ 0 := rfl
  have hlinked : w₁.taken.cache.slot? key = some (placeholder t'.world) := by
    rw [← hw₁]
    exact Cache.link_self _ _ _
  obtain ⟨w, hsettle, hnone, hgone, hpath⟩ := exec_settle_spoiled hs htasks hlinked
    (isPlaceholder t'.world) (hw₁ ▸ hserves') (hw₁ ▸ (congrFun hcontents key).trans hr) hb
  have hrun := h.thenFetch key (by rw [Cache.isLinked, hslot]; rfl) (by rw [hannounce])
    (by rw [hannounce, ← hw₁]; exact hroom)
  rw [hannounce, exec_bind_error hsettle] at hrun
  have hunlinked : w.cache.isLinked key = false := by rw [Cache.isLinked, hnone]; rfl
  refine ⟨_, hrun, ⟨fun hlinked => Bool.false_ne_true (hunlinked.symm.trans hlinked), hgone⟩, ?_⟩
  have hlogged := hpath.log hlog
  rwa [← hw₁] at hlogged

end SessionCache
