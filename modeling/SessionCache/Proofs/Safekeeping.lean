import SessionCache.Proofs.Automaton
import SessionCache.Proofs.Lookups
import SessionCache.Proofs.Recency

/-!
# Sessions that cannot be brought back

To bring a session back may fail in many places: the store may not tell whether there is a record,
there may be no room, a victim's callbacks may fail, or those of the session, and its record may not
be readable. While nobody else does anything, the session is in the store then as it was, or gone for
good, and nothing is left of the attempt.

* `Op.Foregone`: what is left in the store, by the failure.
* `Op.exec_activate_fails`: how a session fares that cannot be brought back.
* `Op.exec_activate_records`: other records are only added, for sessions that left memory.
* `Run.safekeeping`: all of this, in every state that a cache in use gets to.
-/

namespace SessionCache

variable {σ ι ω : Type} {s : Surroundings σ ι ω} {d : Desk σ ι} {w w' : World σ ω} {key k : Key}
  {bytes : ByteArray} {failure : CacheError}

/-- The failures of `Op.get` for `key` that say nothing about its record: of the store, of
`Op.reserve`, or of another session's callback. -/
inductive CacheError.Apart (key : Key) : CacheError → Prop where
  | store (e : StoreError) : Apart key (.store e)
  | capacity {failure : CacheError} (h : failure.isCapacity = true) : Apart key failure
  | lifecycle {k : Key} (phase : Phase) (message : String) (h : k ≠ key) :
      Apart key (.lifecycle k phase message)
  | stalled : Apart key .stalled

namespace Op

/-- What becomes of the record `bytes` of `key` if `Op.get` fails. -/
inductive Foregone (s : Surroundings σ ι ω) (key : Key) (bytes : ByteArray) (w w' : World σ ω) :
    CacheError → Prop where
  /-- A failure `Apart` from `key`: the record is still `bytes`. -/
  | kept {failure : CacheError} (hf : failure.Apart key) (hr : w'.store.contents key = some bytes) :
      Foregone s key bytes w w' failure
  /-- `bytes` cannot be read: `Store.activate` deletes the record, if `fault` lets the call pass. -/
  | spoiled {fault : RecordFault} (hb : Store.stateOf s.codec key bytes = .error fault)
      (hr : w'.store.contents key = none) : Foregone s key bytes w w' (.deserialization key fault)
  /-- `.preActivate` or `.postActivate` failed: `Op.discardRecord` deletes the record, if `fault`
  lets the call pass. -/
  | lost {phase : Phase} {message : String}
      (hr : (∀ n, w.store.fault n (.delete key) = none) → w'.store.contents key = none) :
      Foregone s key bytes w w' (.lifecycle key phase message)

/-- So the record is still `bytes` after a failure `Apart` from `key`. -/
theorem Foregone.record (h : Foregone s key bytes w w' failure) (hf : failure.Apart key) :
    w'.store.contents key = some bytes := by
  cases h with
  | kept _ hr => exact hr
  | spoiled =>
    cases hf with
    | capacity h => exact nomatch h
  | lost =>
    cases hf with
    | capacity h => exact nomatch h
    | lifecycle _ _ hne => exact absurd rfl hne

theorem Loaded.other {x y : Scene σ ι ω} {answer : Except CacheError σ}
    (h : Loaded s key x answer y) (hne : k ≠ key) : y.contents k = x.contents k := by
  cases h with
  | ok | spoiled => exact Function.update_of_ne hne _ _
  | lost _ hc => exact hc.other hne.symm
  | missed | failed => rfl

/-- What `Op.load` leaves of the record if it fails. -/
theorem Loaded.foregone {x y : Scene σ ι ω} (h : Loaded s key x (.error failure) y)
    (hr : x.contents key = some bytes) (hcontents : w'.store.contents = y.contents)
    (hfault : x.fault = w.store.fault) : Foregone s key bytes w w' failure := by
  cases h with
  | lost _ hc =>
    refine .lost fun hlets => ?_
    rw [hcontents]
    exact Scene.Drops.none hc.drops fun n => hfault ▸ hlets n
  | spoiled hr' hb =>
    obtain rfl := Option.some.inj (hr.symm.trans hr')
    exact .spoiled hb (hcontents ▸ Function.update_self ..)
  | missed hr' => exact nomatch hr.symm.trans hr'
  | failed => exact .kept (.store _) (hcontents ▸ hr)

/-- A failure of `Op.reserve` is `Apart` from a `key` that has no slot. -/
theorem Roomless.apart (h : Roomless w failure) (hslot : w.cache.slot? key = none) :
    failure.Apart key := by
  cases h with
  | capacity h => exact .capacity h
  | stalled => exact .stalled
  | lifecycle hslot' =>
    refine .lifecycle _ _ ?_
    rintro rfl
    exact nomatch hslot.symm.trans hslot'

/-- What `Op.announce` does to the scene: a placeholder under `key`, and a task `.coming key`. -/
theorem announced {w₁ : World σ ω} (hslot : w.cache.slot? key = none)
    (hr : w.store.contents key = some bytes)
    (h₁ : w₁.scene d = { w.scene d with cache := w.cache.link key (placeholder w) }) :
    Path s (w.scene d) []
      (w₁.scene { d with tasks := .fetching key .never ::ₘ d.tasks, known := insert key d.known }) := by
  have hscene : w₁.scene
      { d with tasks := .fetching key .never ::ₘ d.tasks, known := insert key d.known } =
      { w₁.scene d with
        tasks := .fetching key .never ::ₘ d.tasks, known := insert key d.known } := rfl
  rw [hscene, h₁]
  exact .one (.announce .never hslot (hr.trans_ne (Option.some_ne_none _)) (isPlaceholder w))

/-! ## How a session fares that is not brought back -/

/-- An `Op.activate` that fails leaves no slot under `key`, the scene sound with the same tasks, and
the record as `Foregone` says. -/
theorem exec_activate_fails (hs : s.Discreet) (ha : s.Alone) (hx : Sound s (w.scene d))
    (hslot : w.cache.slot? key = none) (hr : w.store.contents key = some bytes)
    (h : exec (activate s key) w = (.error failure, w')) :
    w'.cache.slot? key = none ∧ Sound s (w'.scene { d with known := insert key d.known }) ∧
      Foregone s key bytes w w' failure := by
  cases exec_activate_alone hs ha hx hslot h with
  | absent hnone => exact nomatch hr.symm.trans hnone
  | unheard hw =>
    have hcache : w'.cache = w.cache := congrArg Scene.cache hw
    have hcontents : w'.store.contents = w.store.contents := congrArg Scene.contents hw
    refine ⟨hcache ▸ hslot, ?_, .kept (.store _) (hcontents ▸ hr)⟩
    have hscene : w'.scene { d with known := insert key d.known } =
        { w'.scene d with known := insert key d.known } := rfl
    rw [hscene, hw]
    exact (Shift.meet key).sound hx
  | roomless h₁ hi he hw hx' =>
    obtain ⟨-, hcontents, -⟩ := hi.placeholder hs h₁
    refine ⟨?_, hx', .kept (he.apart hslot) ?_⟩
    · rw [show w'.cache = _ from congrArg Scene.cache hw]
      exact Cache.unlink_self _ _
    · rw [show w'.store.contents = _ from congrArg Scene.contents hw]
      exact hcontents.trans hr
  | settled h₁ hi hsettle hx₂ =>
    obtain ⟨hslot₂, hcontents, hfault⟩ := hi.placeholder hs h₁
    obtain ⟨answer, now, y, hloaded, hrecord, ⟨_, _, -, ⟨⟩, -⟩ | ⟨_, rfl, ⟨⟩⟩⟩ :=
      exec_settle_loaded hs (w := World.taken _) hslot₂ hsettle d
    obtain ⟨_, _, ⟨⟩, -⟩ | ⟨_, ds, ⟨⟩, hnone, -, hpath⟩ :=
      exec_settle (w := World.taken _) hs (d := { d with
        tasks := .settling key ::ₘ d.tasks, known := insert key d.known }) rfl hslot₂
        (isPlaceholder w) hsettle
    exact ⟨hnone, hpath.sound hx₂, hloaded.foregone (hcontents.trans hr) hrecord hfault⟩

/-- For `k ≠ key`, a failing `Op.activate` leaves the record, or writes one for a session that was
`.ready` and is evicted. -/
theorem exec_activate_records (hs : s.Discreet) (ha : s.Alone) (hx : Sound s (w.scene d))
    (ht : (w.scene d).Tidy) (hslot : w.cache.slot? key = none)
    (hr : w.store.contents key = some bytes)
    (h : exec (activate s key) w = (.error failure, w')) (hne : k ≠ key) :
    w'.store.contents k = w.store.contents k ∨
      w.store.contents k = none ∧ (∃ slot, w.cache.slot? k = some slot ∧ slot.stage = .ready) ∧
        w'.cache.slot? k = none := by
  have hsearch : ∀ {w₁ w₂ : World σ ω},
      w₁.scene d = { w.scene d with cache := w.cache.link key (placeholder w) } →
      Interlude s w₁ w₂ →
      w₂.store.contents k = w.store.contents k ∨
        w.store.contents k = none ∧ (∃ slot, w.cache.slot? k = some slot ∧ slot.stage = .ready) ∧
          w₂.cache.slot? k = none := by
    intro w₁ w₂ h₁ hi
    have hpath := announced (s := s) hslot hr h₁
    have hrecords := hi.records hs (hpath.sound hx)
      (hpath.tidy hx (List.not_mem_nil) ht) k
    rwa [show w₁.store.contents = w.store.contents from congrArg Scene.contents h₁,
      show w₁.cache = w.cache.link key (placeholder w) from congrArg Scene.cache h₁,
      Cache.link_other _ _ hne.symm] at hrecords
  cases exec_activate_alone hs ha hx hslot h with
  | absent hnone => exact nomatch hr.symm.trans hnone
  | unheard hw => exact .inl (congrFun (congrArg Scene.contents hw) k)
  | roomless h₁ hi _ hw =>
    rw [show w'.store.contents = _ from congrArg Scene.contents hw,
      show w'.cache = _ from congrArg Scene.cache hw, Cache.unlink_other _ hne.symm]
    exact hsearch h₁ hi
  | @settled w₁ w₂ _ h₁ hi hsettle =>
    obtain ⟨hslot₂, -⟩ := hi.placeholder hs h₁
    obtain ⟨answer, now, y, hloaded, hrecord, -⟩ :=
      exec_settle_loaded hs (w := World.taken _) hslot₂ hsettle d
    have hspares : World.Spares key w₂.taken w' :=
      (Local.settle (local_spares key) hs).at hsettle
    rw [hrecord, hloaded.other hne, hspares.slot? hne]
    exact (hsearch h₁ hi :)

end Op

/-- In every reachable state, an `Op.get` that fails for a `key` with the record `bytes` and no slot
(with no other caller's step meanwhile, `Alone`) leaves no slot for it and `spare` as it was. What
becomes of `bytes` is `Foregone`: for a failure `Apart` from `key` the record stays, and an `Op.get`
whose calls pass answers the state in it. Other keys keep their records, or get one by being
evicted. -/
theorem Run.safekeeping {t t' : Traffic σ ι ω} {events : List (Traffic.Event σ ι)} (hs : s.Discreet)
    (ha : s.Alone) (hp : s.patience ≠ 0) (ht : t.Fresh s) (h : Run s t events t')
    (hslot : t'.world.cache.slot? key = none) (hr : t'.world.store.contents key = some bytes)
    (hget : exec (Op.get s key) t'.world = (.error failure, w))
    (hbefore : ∀ w₁, exec (Op.activate s key) t'.world ≠ (.ok (), w₁)) :
    (w.cache.slot? key = none ∧ w.cache.usage.find? key = none ∧
        w.cache.spare = t'.world.cache.spare) ∧
      Op.Foregone s key bytes t'.world w failure ∧
      (failure.Apart key → w.store.contents key = some bytes ∧
        ∀ (s' : Surroundings σ ι ω) (w₁ : World σ ω) (state : σ), s'.Calm → s'.codec = s.codec →
          s'.patience ≠ 0 → w₁.cache.slot? key = none →
          w₁.store.contents key = w.store.contents key → w₁.store.Serves →
          w₁.cache.occupied < s'.settings.maxSize →
          Store.stateOf s.codec key bytes = .ok state →
          (exec (Op.get s' key) w₁).1 = .ok state) ∧
      (Undisturbed events → ∀ k, k ≠ key →
        w.store.contents k = t'.world.store.contents k ∨
          t'.world.store.contents k = none ∧
            (∃ slot, t'.world.cache.slot? k = some slot ∧ slot.stage = .ready) ∧
            w.cache.slot? k = none) := by
  have hx : Sound s (t'.world.scene t'.toDesk) := h.sound hs ht
  have hactivate : exec (Op.activate s key) t'.world = (.error failure, w) := by
    rw [Op.get_of_none hp hslot] at hget
    obtain ⟨⟨⟩, w₁, hactivate, -⟩ | ⟨e, hactivate, ⟨⟩⟩ := exec_bind_cases hget
    · exact absurd hactivate (hbefore w₁)
    · exact hactivate
  obtain ⟨hnone, hsound, hforegone⟩ := Op.exec_activate_fails hs ha hx hslot hr hactivate
  refine ⟨⟨hnone, (hsound.at_none hnone).1, hsound.room.trans hx.room.symm⟩, hforegone,
    fun hapart => ?_, fun hu k hne => ?_⟩
  · have hkept : w.store.contents key = some bytes := hforegone.record hapart
    refine ⟨hkept, fun s' w₁ state hcalm hcodec hp' hslot₁ hr₁ hserves hroom hb => ?_⟩
    obtain ⟨w₂, hw₂⟩ := Op.exec_get_of_record hcalm hp' hslot₁ hserves (hr₁.trans hkept)
      (hcodec ▸ hb) hroom
    rw [hw₂]
  · exact Op.exec_activate_records hs ha hx (h.tidy hs ht hu) hslot hr hactivate hne

/-- A store with a record for `.ofNat 0` whose `get` and `contains` fail at the first call. -/
def Store.mute : Store where
  backend := .memory ⟨[⟨.ofNat 0, Envelope.encode (.ofNat 0) ⟨0⟩ (.bool true), ⟨0⟩⟩]⟩
  precedes a b := decide (a < b)
  fault
    | _, .contains _ => some (.database "refused")
    | _, _ => none

/-- `Op.get` fails at the first call of `Store.mute`, and the next one answers the state in the
record. -/
theorem Run.safekeeping_of_mute :
    ∃ w, exec (Op.get (.small fun _ _ => false) (.ofNat 0))
        (Traffic.opened (.small fun _ _ => false) .mute ⟨0⟩ {}).world =
        (.error (.store (.database "refused")), w) ∧
      w.cache.slot? (.ofNat 0) = none ∧ w.cache.spare = 0 ∧
      w.store.contents (.ofNat 0) = some (Envelope.encode (.ofNat 0) ⟨0⟩ (.bool true)) ∧
      (exec (Op.get (.small fun _ _ => false) (.ofNat 0))
        { w with store := { w.store with fault := fun _ _ => none } }).1 = .ok true := by
  obtain ⟨⟨hnone, -, hspare⟩, -, hkept, -⟩ := Run.safekeeping
    Surroundings.recording_discreet Surroundings.recording_alone (by decide)
    (Traffic.opened_fresh (.small fun _ _ => false) .mute ⟨0⟩ {}) .nil (by rfl) (by rfl)
    (show exec (Op.get _ (.ofNat 0)) _ = (.error (.store (.database "refused")), _) from
      Prod.ext rfl rfl)
    (fun w₁ h => nomatch congrArg Prod.fst h)
  obtain ⟨hrecord, hlater⟩ := hkept (.store _)
  have hread : Store.stateOf Codec.flag (.ofNat 0) (Envelope.encode (.ofNat 0) ⟨0⟩ (.bool true)) =
      .ok true := Store.stateOf_encode (by decide) (by decide)
        (Codec.flag_faithful.roundTrips _ _ rfl) (Codec.flag_faithful.shallow _ _ rfl)
  exact ⟨_, Prod.ext rfl rfl, hnone, hspare, hrecord,
    hlater (.small fun _ _ => false) _ true Surroundings.small_calm rfl (by decide) hnone rfl
      (Store.serves_of_memory (fun _ _ _ => rfl) rfl) (by decide) hread⟩

end SessionCache
