import SessionCache.Proofs.Conservation
import SessionCache.Proofs.Expiry
import SessionCache.Proofs.Lookups
import SessionCache.Proofs.Recency
import SessionCache.Proofs.Traffic.Procession

/-!
# What a sweep passivates

`Op.sweep` takes its candidates from `Usage.sweep`, which goes by `idleSince`, and looks at
`lastAccess` of each slot again. As `lastAccess ≤ idleSince` for every ready session, the second look
passes over none: the candidates are the ready sessions with `now - idleSince > idleTimeout`, and all of
them are tried. At the end of the same sweep `Op.expirePassivated` deletes old records; a record that the
sweep itself has written can be among them, if callbacks took longer than `removalTimeout`.

* `World.Idle`: a ready session with its `idleSince`; `World.Overdue`: it is idle for too long.
* `Sound.mem_sweep`, `Sound.pairwise_sweep`: the candidates of a sweep, and their order.
* `Op.exec_expirePassivated_spares`: a record that is not listed with an older time is kept.
* `Op.Swept`: what the passivation of idle sessions does to each session, and its report.
* `Run.sweep_exact`: a sweep is that and the deletion of old records.
* `Run.sweep_belated`: a sweep puts a session into the store and deletes it there.
-/

namespace SessionCache

variable {σ ι ω : Type} {s : Surroundings σ ι ω} {x x' : Scene σ ι ω} {ds : List (Deed σ)}
  {d : Desk σ ι} {t t' : Traffic σ ι ω} {events : List (Traffic.Event σ ι)} {w w' : World σ ω}
  {key : Key} {slot : Slot σ} {state : σ}

/-! ## Overdue sessions -/

/-- The slot of a tracked key that is not `inUse` is `.ready`, with a `lastAccess` not after its
`idleSince`. -/
theorem Stands.of_idle {slot? : Option (Slot σ)} {e : UsageEntry} {m n : Nat}
    (h : Stands key slot? (some e) m n) (he : e.inUse = false) :
    ∃ slot state, slot? = some slot ∧ slot.IsReady state ∧ e = ⟨key, false, e.idleSince⟩ ∧
      slot.lastAccess ≤ e.idleSince := by
  cases h with
  | ready h hl => exact ⟨_, _, rfl, h, rfl, hl⟩
  | out _ hused => exact nomatch he.symm.trans hused

/-- `key` has the ready `slot` and is tracked as idle `since`. -/
structure World.Idle (w : World σ ω) (key : Key) (slot : Slot σ) (since : Instant) : Prop where
  linked : w.cache.slot? key = some slot
  ready : ∃ state, slot.IsReady state
  tracked : w.cache.usage.find? key = some ⟨key, false, since⟩

/-- A ready session with `now - idleSince > idleTimeout`. -/
def World.Overdue (s : Surroundings σ ι ω) (w : World σ ω) (key : Key) : Prop :=
  ∃ slot since timeout, w.Idle key slot since ∧ s.settings.idleTimeout = some timeout ∧
    timeout < w.now.since since

/-- `cache.usage` has the `idleTimeout` of the settings. -/
def Scene.Timed (s : Surroundings σ ι ω) (x : Scene σ ι ω) : Prop :=
  x.cache.usage.idleTimeout = s.settings.idleTimeout

theorem Shift.timed (h : Shift s x ds x') (hx : x.Timed s) : x'.Timed s := by
  unfold Scene.Timed at hx ⊢
  rw [← hx]
  cases h with
  | promote key => simp
  | checkOut => simp [Cache.markInUse]
  | _ => rfl

theorem Run.timed (hs : s.Discreet) (ht : t.Fresh s) (h : Run s t events t') :
    t'.scene.Timed s := by
  induction h with
  | nil => exact congrArg (·.usage.idleTimeout) ht.cache
  | snoc h hstep ih =>
    obtain ⟨ds, hpath, -⟩ := hstep.path hs (h.sound hs ht)
    exact hpath.keeps (fun hshift => hshift.timed) ih

namespace Sound

/-- `Usage.sweep` lists exactly the `Overdue` keys. -/
theorem mem_sweep (hx : Sound s (w.scene d)) (ht : (w.scene d).Timed s) (key : Key) :
    key ∈ w.cache.usage.sweep w.now ↔ w.Overdue s key := by
  have ht : w.cache.usage.idleTimeout = s.settings.idleTimeout := ht
  cases htimeout : s.settings.idleTimeout with
  | none => simp [Usage.sweep, World.Overdue, ht, htimeout]
  | some timeout =>
    refine (Usage.mem_sweep hx.tracked (ht.trans htimeout) w.now key).trans ?_
    constructor
    · rintro ⟨e, he, hfree, hlong⟩
      have hstands : Stands key (w.cache.slot? key) (some e) _ _ := he ▸ hx.stands key
      obtain ⟨slot, state, hslot, hr, hentry, -⟩ := hstands.of_idle hfree
      exact ⟨slot, e.idleSince, timeout, ⟨hslot, ⟨state, hr⟩, hentry ▸ he⟩, htimeout, hlong⟩
    · rintro ⟨slot, since, timeout', hidle, htimeout', hlong⟩
      obtain rfl := Option.some.inj (htimeout.symm.trans htimeout')
      exact ⟨_, hidle.tracked, rfl, hlong⟩

/-- `Usage.sweep` lists keys in the order of `idleSince`. -/
theorem pairwise_sweep (hx : Sound s (w.scene d)) :
    (w.cache.usage.sweep w.now).Pairwise fun a b => ∀ slot slot' since since',
      w.Idle a slot since → w.Idle b slot' since' → since ≤ since' := by
  refine (Usage.pairwise_sweep hx.tracked w.now).imp ?_
  intro a b h slot slot' since since' ha hb
  exact h _ _ ha.tracked hb.tracked

/-- `lastAccess` is not after `idleSince`. -/
theorem lastAccess_le (hx : Sound s (w.scene d)) {since : Instant} (h : w.Idle key slot since) :
    slot.lastAccess ≤ since := by
  obtain ⟨state, hr⟩ := h.ready
  obtain ⟨⟨since', hsince, hle⟩, -⟩ := hx.at_ready h.linked hr
  obtain rfl : since = since' :=
    congrArg (·.idleSince) (Option.some.inj (h.tracked.symm.trans hsince))
  exact hle

end Sound

/-- If `a` is idle since before `b`, the `lastAccess` of `a` is not after that of `b`. -/
theorem Ranked.lastAccess_of_idle (h : Ranked s t events t') (hx : Sound s t'.scene) {a b : Key}
    {slot slot' : Slot σ} {since since' : Instant} (ha : t'.world.Idle a slot since)
    (hb : t'.world.Idle b slot' since') (hlt : since < since') :
    slot.lastAccess ≤ slot'.lastAccess := by
  have hmem : ∀ {key slot since}, t'.world.Idle key slot since →
      ⟨key, slot.lastAccess, some since⟩ ∈ t'.world.cache.ranking := fun {key slot since} hidle => by
    obtain ⟨state, hr⟩ := hidle.ready
    refine (Cache.mem_ranking_iff hx.distinct).mpr ⟨slot, hidle.linked, hr.stage, ?_⟩
    exact congrArg (LastUse.mk key slot.lastAccess) (congrArg (Option.map _) hidle.tracked)
  exact h.lastAccess_le (hmem ha) (hmem hb) rfl rfl (hx.lastAccess_le (w := t'.world) ha) hlt

/-! ## Old records -/

/-- `Op.expirePassivated` leaves slots, tracker and clock, and every record that is not
`Outdated`. -/
theorem Op.exec_expirePassivated_spares {r : Except CacheError Nat}
    (h : exec (expirePassivated s) w = (r, w')) :
    w'.cache.slots = w.cache.slots ∧ w'.cache.usage = w.cache.usage ∧ w'.now = w.now ∧
      ∀ key, ¬w.Outdated s key → w'.store.contents key = w.store.contents key := by
  obtain ⟨keys, hgone, hend, hnow, hold⟩ := exec_expirePassivated_gone h
  have hmemory : w'.cache.slots = w.cache.slots ∧ w'.cache.usage = w.cache.usage := by
    cases hend with
    | counted hcache => exact ⟨congrArg (·.slots) hcache, congrArg (·.usage) hcache⟩
    | failed _ hcache => exact ⟨congrArg (·.slots) hcache, congrArg (·.usage) hcache⟩
  exact ⟨hmemory.1, hmemory.2, hnow,
    fun key hnew => hgone.others key fun hmem => hnew (hold key hmem)⟩

/-! ## Sweeps -/

/-- What `Op.sweepIdle` did from `w` to `w'`: `rounds` has the keys in the order in which they were
tried, each with the answer of `Op.passivate`. -/
structure Op.Swept (s : Surroundings σ ι ω) (w w' : World σ ω)
    (rounds : List (Key × Except CacheError Unit)) (report : SweepReport) : Prop where
  passage : Op.Procession s w rounds w'
  nodup : (rounds.map (·.1)).Nodup
  tried : ∀ key, key ∈ rounds.map (·.1) ↔ w.Overdue s key
  /-- In the order of `idleSince`, and so of `lastAccess` where `idleSince` differs. -/
  ordered : (rounds.map (·.1)).Pairwise fun a b => ∀ slot slot' since since',
    w.Idle a slot since → w.Idle b slot' since' →
      since ≤ since' ∧ (since < since' → slot.lastAccess ≤ slot'.lastAccess)
  /-- Each has its record and no slot, or its slot as before with one more `passivationFailures`. -/
  ends : ∀ key r, (key, r) ∈ rounds → ∃ slot state, w.cache.slot? key = some slot ∧
    slot.IsReady state ∧ Op.Stowed s key slot state w w' r
  others : ∀ key, ¬w.Overdue s key →
    w'.cache.slot? key = w.cache.slot? key ∧ w'.store.contents key = w.store.contents key
  /-- A key keeps its `UsageEntry`, unless it was passivated. -/
  tracked : ∀ key, (key, .ok ()) ∉ rounds →
    w'.cache.usage.find? key = w.cache.usage.find? key
  examined : report.examined = rounds.length
  passivated : report.passivated = rounds.countP (·.2.isOk)
  failed : report.failed = rounds.countP (!·.2.isOk)
  expired : report.expired = 0

namespace Op

variable {rounds : List (Key × Except CacheError Unit)}

/-- `examined = passivated + failed`. -/
theorem Swept.adds_up {report : SweepReport} (h : Swept s w w' rounds report) :
    report.examined = report.passivated + report.failed := by
  rw [h.examined, h.passivated, h.failed, countP_isOk_add]

/-- Each key is tried once. -/
theorem Swept.round_unique {report : SweepReport} (h : Swept s w w' rounds report)
    {r r' : Except CacheError Unit} (hr : (key, r) ∈ rounds) (hr' : (key, r') ∈ rounds) :
    (key, r) = (key, r') := List.inj_on_of_nodup_map h.nodup hr hr' rfl

/-- A session whose passivation failed is still `Overdue` later on, while its slot and its
`UsageEntry` stay. -/
theorem Swept.again {report : SweepReport} {failure : CacheError} (h : Swept s w w' rounds report)
    (hmem : (key, .error failure) ∈ rounds) {w'' : World σ ω}
    (hslot : w''.cache.slot? key = w'.cache.slot? key)
    (htracked : w''.cache.usage.find? key = w'.cache.usage.find? key) (hnow : w'.now ≤ w''.now) :
    w''.Overdue s key := by
  obtain ⟨slot, state, hbefore, hr, hstowed⟩ := h.ends key _ hmem
  obtain ⟨slot', since, timeout, hidle, htimeout, hlong⟩ :=
    (h.tried key).mp (List.mem_map.mpr ⟨_, hmem, rfl⟩)
  have honce : (key, .ok ()) ∉ rounds := fun hok =>
    nomatch congrArg Prod.snd (h.round_unique hok hmem)
  cases hstowed with
  | kept _ hfrom hto _ hstays =>
    refine ⟨slot, since, timeout, ⟨hslot.trans hstays, ⟨state, hr⟩, ?_⟩, htimeout,
      Nat.lt_of_lt_of_le hlong (Instant.since_mono (Int.le_trans (hfrom.trans hto).1 hnow) _)⟩
    rw [htracked, h.tracked key honce]
    exact hidle.tracked

/-- A `Procession` over exactly the `Overdue` keys, in the order of `idleSince`, is a `Swept`. -/
theorem Procession.swept (hs : s.Calm) (hx : Sound s (w.scene d)) (h : Procession s w rounds w')
    (hnodup : (rounds.map (·.1)).Nodup) (htried : ∀ key, key ∈ rounds.map (·.1) ↔ w.Overdue s key)
    (hordered : (rounds.map (·.1)).Pairwise fun a b => ∀ slot slot' since since',
      w.Idle a slot since → w.Idle b slot' since' →
        since ≤ since' ∧ (since < since' → slot.lastAccess ≤ slot'.lastAccess)) :
    Swept s w w' rounds (SweepReport.tallied { examined := rounds.length } rounds) where
  passage := h
  nodup := hnodup
  tried := htried
  ordered := hordered
  ends _ _ hmem := h.stowed hs hx.distinct hnodup hmem
  others key hnot := h.spares hs.discreet fun hmem => hnot ((htried key).mp hmem)
  tracked _ hk := h.tracked hs hx.distinct hk
  examined := rfl
  passivated := Nat.zero_add _
  failed := Nat.zero_add _
  expired := rfl

/-- `Op.sweepIdle` tries exactly the `Overdue` keys. -/
theorem exec_sweepIdle_swept (hs : s.Calm) (hx : Sound s (w.scene d)) (ht : (w.scene d).Timed s)
    (hused : ∀ a b slot slot' since since', w.Idle a slot since → w.Idle b slot' since' →
      since < since' → slot.lastAccess ≤ slot'.lastAccess) :
    ∃ rounds report w', exec (sweepIdle s) w = (.ok report, w') ∧ Swept s w w' rounds report := by
  cases htimeout : s.settings.idleTimeout with
  | none =>
    refine ⟨[], {}, w, by rw [sweepIdle, htimeout]; rfl, ?_⟩
    refine Procession.nil.swept hs hx .nil (fun key => ?_) .nil
    simp [World.Overdue, htimeout]
  | some timeout =>
    have hdue : ∀ key ∈ w.cache.usage.sweep w.now, ∃ slot state,
        w.cache.slot? key = some slot ∧ slot.IsReady state ∧
          timeout < w.now.since slot.lastAccess := by
      intro key hkey
      obtain ⟨slot, since, timeout', hidle, htimeout', hlong⟩ := (hx.mem_sweep ht key).mp hkey
      obtain rfl := Option.some.inj (htimeout.symm.trans htimeout')
      obtain ⟨state, hr⟩ := hidle.ready
      refine ⟨slot, state, hidle.linked, hr, Nat.lt_of_lt_of_le hlong ?_⟩
      exact Instant.since_anti (hx.lastAccess_le hidle) _
    have hnodup : (w.cache.usage.sweep w.now).Nodup := Usage.nodup_sweep hx.tracked w.now
    obtain ⟨rounds, w', hrun, hprocession, hkeys⟩ := exec_sweepKeys_all hs.discreet
      { examined := (w.cache.usage.sweep w.now).length } hnodup hdue
    refine ⟨rounds, _, w', ?_, hprocession.swept hs hx ?_ ?_ ?_⟩
    · rw [sweepIdle, htimeout]
      dsimp only
      rw [exec_bind_ok (exec_cache _), exec_bind_ok (exec_now _), hrun, ← hkeys, List.length_map]
    · exact hkeys ▸ hnodup
    · exact fun key => hkeys ▸ hx.mem_sweep ht key
    · rw [hkeys]
      refine hx.pairwise_sweep.imp ?_
      intro a b h slot slot' since since' ha hb
      exact ⟨h slot slot' since since' ha hb, hused a b slot slot' since since' ha hb⟩

end Op

/-- In every reachable state, `Op.sweep` tries exactly the ready sessions with `now - idleSince >
idleTimeout`, in the order of `idleSince`, and then runs `Op.expirePassivated`, which leaves slots
and tracker alone. A session that was written has its record afterwards, unless that is `Outdated`
by then; one whose passivation failed is `Overdue` for the next sweep. `idleSince` is read later
than `lastAccess` of the same use, so a session may be past `lastAccess + idleTimeout` and not be
tried yet. -/
theorem Run.sweep_exact (hs : s.Calm) (ht : t.Fresh s) (h : Run s t events t') :
    ∃ rounds report w₁ r w', exec (Op.sweepIdle s) t'.world = (.ok report, w₁) ∧
      Op.Swept s t'.world w₁ rounds report ∧ report.examined = report.passivated + report.failed ∧
      (s.settings.idleTimeout = none → rounds = []) ∧
      exec (Op.expirePassivated s) w₁ = (r, w') ∧
      exec (Op.sweep s) t'.world = (.ok (report.withExpired r), w') ∧
      (∀ key, w'.cache.slot? key = w₁.cache.slot? key ∧
        w'.cache.usage.find? key = w₁.cache.usage.find? key ∧
        (¬w₁.Outdated s key → w'.store.contents key = w₁.store.contents key)) ∧
      ∀ key failure, (key, .error failure) ∈ rounds → ∀ now, w'.now ≤ now →
        World.Overdue s { w' with now } key := by
  have hx : Sound s (t'.world.scene t'.toDesk) := h.sound hs.discreet ht
  obtain ⟨rounds, report, w₁, hidle, hswept⟩ := Op.exec_sweepIdle_swept hs hx
    (h.timed hs.discreet ht)
    fun _ _ _ _ _ _ ha hb => (h.ranked hs.discreet ht).lastAccess_of_idle hx ha hb
  rcases hold : exec (Op.expirePassivated s) w₁ with ⟨r, w'⟩
  obtain ⟨hslots, husage, hnow', hspared⟩ := Op.exec_expirePassivated_spares hold
  have hslot : ∀ key, w'.cache.slot? key = w₁.cache.slot? key := fun key =>
    congrArg (·.lookup key) hslots
  have htracked : ∀ key, w'.cache.usage.find? key = w₁.cache.usage.find? key := fun key =>
    congrArg (·.find? key) husage
  refine ⟨rounds, report, w₁, r, w', hidle, hswept, hswept.adds_up, fun hnone => ?_, hold,
    Op.exec_sweep_eq hidle hold, fun key => ⟨hslot key, htracked key, hspared key⟩,
    fun key failure hmem now hnow => ?_⟩
  · refine List.eq_nil_iff_forall_not_mem.mpr fun round hmem => ?_
    obtain ⟨_, _, timeout, _, htimeout, _⟩ :=
      (hswept.tried round.1).mp (List.mem_map.mpr ⟨round, hmem, rfl⟩)
    exact nomatch hnone.symm.trans htimeout
  · exact hswept.again hmem (hslot key) (htracked key) (show w₁.now ≤ now from hnow' ▸ hnow)

/-- `maxSize := 1` and an `idleTimeout` of 5 ms. -/
def Surroundings.restless : Surroundings Bool Bool Journal :=
  .recording { maxSize := 1, idleTimeout := some (.ofMillis 5) } .flag (fun _ _ => false) .ofNat

theorem Surroundings.restless_calm : restless.Calm := recording_calm

/-- The theorem applies to a sweep that tries a session. -/
theorem Run.sweep_exact_of_idle :
    ∃ events t' rounds report w₁ r w', Run .restless
        (.opened .restless (.empty fun _ _ => none) ⟨0⟩ {}) events t' ∧
      Op.Swept .restless t'.world w₁ rounds report ∧ .ofNat 0 ∈ rounds.map (·.1) ∧
      exec (Op.sweep .restless) t'.world = (.ok (report.withExpired r), w') := by
  have h₁ := (Run.nil (s := .restless)
    (t := .opened .restless (.empty fun _ _ => none) ⟨0⟩ {})).thenCreate true
      (by decide) (fun hk => hk rfl)
  have h₂ := h₁.snoc (.pass (show _ ≤ (⟨20000000⟩ : Instant) by decide) (by decide))
  obtain ⟨rounds, report, w₁, r, w', -, hswept, -, -, -, hsweep, -, -⟩ := Run.sweep_exact
    Surroundings.restless_calm (Traffic.opened_fresh _ _ _ _) h₂
  refine ⟨_, _, rounds, report, w₁, r, w', h₂, hswept, (hswept.tried _).mpr ?_, hsweep⟩
  exact ⟨_, _, .ofMillis 5, ⟨rfl, ⟨true, rfl, rfl, rfl, rfl, rfl⟩, rfl⟩, rfl, by decide⟩

/-! ## Slow callbacks -/

/-- A callback that moves the clock on by `d`. -/
def Callback.lasting (d : Duration) : Callback Bool Journal := fun _ _ state => do
  modify fun w => if w.now.plus d ≤ .latest then { w with now := w.now.plus d } else w
  return (state, none)

/-- `restless` with callbacks that take longer than `removalTimeout`. -/
def Surroundings.slow : Surroundings Bool Bool Journal :=
  { Surroundings.recording
      { maxSize := 1, idleTimeout := some (.ofMillis 1), removalTimeout := some (.ofMillis 3) }
      .flag (fun _ _ => false) .ofNat with
    lifecycle := .around (fun _ state => pure (.ok state)) (.lasting (.ofMillis 5)) }

theorem Callback.aside_lasting (d : Duration) (phase : Phase) (key : Key) (state : Option Bool)
    (w : World Bool Journal) : Aside w ((Callback.lasting d phase key state).run w).2 := by
  change Aside w (if w.now.plus d ≤ .latest then { w with now := w.now.plus d } else w)
  split
  · rename_i hlatest
    exact ⟨rfl, rfl, Int.le_add_of_nonneg_right (Int.natCast_nonneg _), fun _ => hlatest⟩
  · exact .refl w

namespace Surroundings

theorem slow_phase (phase : Phase) (key : Key) (state : Option Bool) (w : World Bool Journal) :
    ((slow.lifecycle.runPhase phase key state).run w).1 = (state, none) := by
  rw [slow, Lifecycle.run_around]
  cases state <;> rfl

theorem slow_discreet : slow.Discreet where
  callback := Lifecycle.aside_around (Callback.aside_lasting _)
  instantiate _ _ w := .refl w
  lock w := .refl w
  freshKey w := ⟨rfl, rfl, Int.le_refl w.now.nanos, id⟩

theorem slow_calm : slow.Calm where
  discreet := slow_discreet
  succeeds := by
    rintro f o o' ⟨state, w, -, hfailed, -⟩
    rw [← hfailed, slow_phase]
    rfl
  turns := by
    rintro phase key state state' ⟨w, after, hrun, rfl⟩
    rw [slow_phase] at hrun
    cases hrun
    rfl

/-- `restless`, where a task waits a millisecond for the lock on the slots, so that `idleSince` is
that much after `lastAccess`. -/
def belated : Surroundings Bool Bool Journal :=
  { restless with lockedAt := fun w => if w.now = ⟨0⟩ then ⟨1000000⟩ else w.now }

theorem belated_discreet : belated.Discreet where
  callback := restless_calm.discreet.callback
  instantiate := restless_calm.discreet.instantiate
  lock w := by
    have latest : (⟨1000000⟩ : Instant) ≤ .latest := by decide
    change Aside w { w with now := if w.now = ⟨0⟩ then ⟨1000000⟩ else w.now }
    split
    · rename_i hzero
      exact ⟨rfl, rfl, hzero ▸ (by decide : (⟨0⟩ : Instant) ≤ ⟨1000000⟩), fun _ => latest⟩
    · exact .refl w
  freshKey := restless_calm.discreet.freshKey

theorem belated_calm : belated.Calm where
  discreet := belated_discreet
  succeeds := restless_calm.succeeds
  turns := restless_calm.turns

end Surroundings

/-- In `slow` a sweep writes a session and deletes its record. In `belated` a ready session with
`now - lastAccess > idleTimeout`, but not `now - idleSince > idleTimeout`, is not tried. -/
theorem Run.sweep_belated :
    (Surroundings.slow.Calm ∧ ∃ events t' w', Run .slow
        (.opened .slow (.empty fun _ _ => none) ⟨0⟩ {}) events t' ∧
      t'.world.Overdue .slow (.ofNat 0) ∧
      exec (Op.sweep .slow) t'.world = (.ok ⟨1, 1, 0, 1⟩, w') ∧
      w'.cache.slot? (.ofNat 0) = none ∧ w'.store.contents (.ofNat 0) = none) ∧
    Surroundings.belated.Calm ∧ ∃ events t' slot w', Run .belated
        (.opened .belated (.empty fun _ _ => none) ⟨0⟩ {}) events t' ∧
      t'.world.cache.slot? (.ofNat 0) = some slot ∧ slot.stage = .ready ∧
      Duration.ofMillis 5 < t'.world.now.since slot.lastAccess ∧
      exec (Op.sweep .belated) t'.world = (.ok {}, w') ∧
      w'.cache.isLinked (.ofNat 0) = true := by
  refine ⟨⟨Surroundings.slow_calm, ?_⟩, Surroundings.belated_calm, ?_⟩
  · have h₁ := (Run.nil (s := .slow)
      (t := .opened .slow (.empty fun _ _ => none) ⟨0⟩ {})).thenCreate true
        (by decide) (fun hk => hk rfl)
    have h₂ := h₁.snoc (.pass (show _ ≤ (⟨20000000⟩ : Instant) by decide) (by decide))
    refine ⟨_, _, _, h₂, ?_, Prod.ext ?_ rfl, ?_, ?_⟩
    · exact ⟨_, _, .ofMillis 1, ⟨rfl, ⟨true, rfl, rfl, rfl, rfl, rfl⟩, rfl⟩, rfl, by decide⟩
    · decide +kernel
    · decide +kernel
    · decide +kernel
  · have h₁ := (Run.nil (s := .belated)
      (t := .opened .belated (.empty fun _ _ => none) ⟨0⟩ {})).thenCreate true
        (by decide) (fun hk => hk rfl)
    have h₂ := h₁.snoc (.pass (show _ ≤ (⟨5500000⟩ : Instant) by decide) (by decide))
    refine ⟨_, _, _, _, h₂, rfl, rfl, by decide, Prod.ext ?_ rfl, ?_⟩
    · decide +kernel
    · decide +kernel

end SessionCache
