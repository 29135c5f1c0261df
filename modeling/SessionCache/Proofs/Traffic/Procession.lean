import SessionCache.Proofs.Record.Recovery
import SessionCache.Proofs.Traffic.Alone

/-!
# Sessions that go to the store one after the other

A sweep, and a drain, pass over some keys and passivate the ready sessions among them. A
`Op.Procession` is such a passage with what each session was answered. Callbacks that do not fail
leave only two ends to a session (`Op.Stowed`): it is in the store, or it could not be written and
is ready as before.

* `Op.exec_passivate_calm`: what the passivation of one session does.
* `Op.Procession.spares`, `Op.Procession.tracked`, `Op.Procession.stowed`: what becomes of the other
  keys, what is tracked of them, and what becomes of each key that is passed over once.
* `Op.exec_sweepKeys_all`, `Op.exec_passivateAll_procession`: the two passages, and their reports.
* `Op.exec_passivateAll_chain`: a session that nests too deep is written, and cannot be read again.
-/

namespace SessionCache

variable {σ ι ω : Type} {s : Surroundings σ ι ω} {w w₁ w' : World σ ω} {key k : Key} {slot : Slot σ}
  {state : σ}

/-- `toKept` with its own state keeps a ready slot. -/
theorem Slot.IsReady.toKept_self (hr : slot.IsReady state) : slot.toKept state = slot := by
  obtain ⟨stage, payload, lastAccess, removePending, reserved, held, stay⟩ := slot
  obtain rfl : payload = some state := hr.payload
  obtain rfl : held = false := hr.held
  rfl

theorem Instant.since_mono {t t' : Instant} (h : t ≤ t') (u : Instant) :
    t.since u ≤ t'.since u := by
  simp only [since, Duration.le_iff, Instant.le_iff] at h ⊢
  omega

theorem Instant.since_anti {u u' : Instant} (h : u ≤ u') (t : Instant) :
    t.since u' ≤ t.since u := by
  simp only [since, Duration.le_iff, Instant.le_iff] at h ⊢
  omega

/-- `report` with `passivated` and `failed` counted from the answers. -/
def SweepReport.tallied (report : SweepReport) (rounds : List (Key × Except CacheError Unit)) :
    SweepReport :=
  { report with
    passivated := report.passivated + rounds.countP (·.2.isOk)
    failed := report.failed + rounds.countP (!·.2.isOk) }

theorem SweepReport.tallied_cons (report : SweepReport) (round : Key × Except CacheError Unit)
    (rounds : List (Key × Except CacheError Unit)) :
    (report.tallied [round]).tallied rounds = report.tallied (round :: rounds) := by
  simp only [tallied, List.countP_cons, List.countP_nil]
  congr 1 <;> omega

/-- The `.ok` answers and the others are all answers. -/
theorem countP_isOk_add (rounds : List (Key × Except CacheError Unit)) :
    rounds.countP (·.2.isOk) + rounds.countP (!·.2.isOk) = rounds.length := by
  rw [List.length_eq_countP_add_countP (·.2.isOk)]
  simp

namespace Op

/-! ## One session -/

theorem exec_fire_calm (hs : s.Calm) {phase : Phase} {state? : Option σ}
    {r : Except CacheError (Option σ)} (h : exec (s.lifecycle.fire phase key state?) w = (r, w')) :
    Aside w w' ∧
      ∃ after, r = .ok after ∧ ∀ state, state? = some state → after.getD state = state := by
  obtain ⟨after, w₁, hfire, haside, hkeep⟩ := hs.fire phase key state? w
  obtain ⟨rfl, rfl⟩ := Prod.mk.inj (hfire.symm.trans h)
  exact ⟨haside, after, rfl, hkeep⟩

/-- `Op.passivate` of a ready session with `Calm` callbacks: the answer is that of `Store.passivate`
at some time in between, and the slot goes or stays by it. -/
theorem exec_passivate_calm (hs : s.Calm) (hd : w.cache.Distinct)
    (hslot : w.cache.slot? key = some slot) (hr : slot.IsReady state) {r : Except CacheError Unit}
    (h : exec (passivate s key) w = (r, w')) :
    ∃ time, w.now.Passes time ∧ time.Passes w'.now ∧
      exec (Store.passivate s.codec time key state) w.store = (r, w'.store) ∧
      w'.cache = match r with
        | .ok () => (w.cache.unlink key).countPassivated
        | .error _ => w.cache.countFailure := by
  obtain ⟨_, w₁, hf, h⟩ := exec_passivate_ready hslot hr h
  obtain ⟨haside, after, rfl, hkeep⟩ := exec_fire_calm hs hf
  obtain ⟨answer, w₂, hp, h⟩ := h
  rw [hkeep state rfl] at hp h
  rcases hwrite : exec (Store.passivate s.codec w₁.now key state) w.store with ⟨written, store⟩
  rw [exec_onStore, haside.store, hwrite] at hp
  obtain ⟨rfl, rfl⟩ := Prod.mk.inj hp
  cases written with
  | ok _ =>
    dsimp only at h
    rw [moveOut, exec_bind_ok (exec_unlink _ _), exec_bind_ok (exec_modifyCounters _ _)] at h
    obtain ⟨_, w₃, hlast, h⟩ := exec_attempt_bind h
    obtain ⟨haside', after', rfl, -⟩ := exec_fire_calm hs hlast
    cases h
    refine ⟨w₁.now, haside.passes, haside'.passes, hwrite.trans (by rw [haside'.store]), ?_⟩
    have hcache : w₁.cache.unlink key = w.cache.unlink key :=
      (congrArg (·.unlink key) haside.cache).trans (unlink_takeOut w.cache)
    rw [haside'.cache]
    exact congrArg Cache.countPassivated hcache
  | error failure =>
    dsimp only at h
    rw [takeBack, exec_bind_ok (exec_modifyCounters _ _)] at h
    obtain ⟨_, w₃, hundo, h⟩ := exec_attempt_bind h
    obtain ⟨haside', after', rfl, hkeep'⟩ := exec_fire_calm hs hundo
    dsimp only at h
    rw [hkeep' state rfl] at h
    cases h
    refine ⟨w₁.now, haside.passes, haside'.passes, hwrite.trans (by rw [haside'.store]), ?_⟩
    have hcache : w₃.cache = takeOut key w.cache.countFailure := by
      rw [haside'.cache, haside.cache]
      rfl
    change w₃.cache.update key (·.toKept state) = w.cache.countFailure
    rw [hcache, update_takeOut w.cache.countFailure fun _ => rfl]
    exact Cache.update_of_fixed (c := w.cache.countFailure) hd hslot hr.toKept_self

/-- The clock went on, and the store by calls of its backend. -/
def Onward (w w' : World σ ω) : Prop := w.now.Passes w'.now ∧ w.store.Moves w'.store

theorem allows_onward (changes : Cache σ → Cache σ → Prop) :
    Allows (Onward (σ := σ) (ω := ω)) changes where
  refl w := ⟨.refl _, .refl⟩
  trans h h' := ⟨h.1.trans h'.1, Store.lasting_moves.trans h.2 h'.2⟩
  aside h := ⟨h.passes, by rw [h.store]; exact .refl⟩
  store h := ⟨.refl _, h⟩
  cache _ _ _ := ⟨.refl _, .refl⟩

/-- What became of a ready session in `Op.passivate`, by the answer of `Store.passivate` at some
time between `w` and `w'`. -/
inductive Stowed (s : Surroundings σ ι ω) (key : Key) (slot : Slot σ) (state : σ)
    (w w' : World σ ω) : Except CacheError Unit → Prop where
  /-- The record was written, and the slot is gone. -/
  | stored {store : Store} {time : Instant} {value : Json.Value} (hm : w.store.Moves store)
      (hfrom : w.now.Passes time) (hto : time.Passes w'.now)
      (hw : store.writing s.codec key time state = .ok ()) (hv : s.codec.encode state = .ok value)
      (hslot : w'.cache.slot? key = none)
      (hrecord : w'.store.contents key = some (Envelope.encode key time value)) :
      Stowed s key slot state w w' (.ok ())
  /-- The write failed, and the slot is as it was. -/
  | kept {store : Store} {time : Instant} {failure : CacheError} (hm : w.store.Moves store)
      (hfrom : w.now.Passes time) (hto : time.Passes w'.now)
      (hw : store.writing s.codec key time state = .error failure)
      (hslot : w'.cache.slot? key = some slot)
      (hrecord : w'.store.contents key = w.store.contents key) :
      Stowed s key slot state w w' (.error failure)

theorem exec_passivate_stowed (hs : s.Calm) (hd : w.cache.Distinct)
    (hslot : w.cache.slot? key = some slot) (hr : slot.IsReady state) {r : Except CacheError Unit}
    (h : exec (passivate s key) w = (r, w')) : Stowed s key slot state w w' r := by
  obtain ⟨time, hfrom, hto, hwrite, hcache⟩ := exec_passivate_calm hs hd hslot hr h
  have hw : w.store.writing s.codec key time state = r := congrArg Prod.fst hwrite
  obtain ⟨-, ⟨value, rfl, hv, hcontents⟩ | ⟨message, rfl, -, hstore⟩ | ⟨e, rfl, hcontents⟩⟩ :=
    Store.exec_passivate hwrite
  · refine .stored .refl hfrom hto hw hv ?_ ?_
    · rw [hcache]
      exact Cache.unlink_self w.cache key
    · rw [hcontents, Function.update_self]
  · refine .kept .refl hfrom hto hw ?_ (by rw [hstore])
    rw [hcache]
    exact hslot
  · refine .kept .refl hfrom hto hw ?_ (by rw [hcontents])
    rw [hcache]
    exact hslot

/-- `Stowed` from `w₁` to `w₂` is `Stowed` from `w` to `w₃`, if `key` is left alone before and
afterwards. -/
theorem Stowed.within {w₂ w₃ : World σ ω} {r : Except CacheError Unit}
    (h : Stowed s key slot state w₁ w₂ r) (hbefore : Onward w w₁) (hafter : Onward w₂ w₃)
    (hrecord : w₁.store.contents key = w.store.contents key)
    (hslot' : w₃.cache.slot? key = w₂.cache.slot? key)
    (hrecord' : w₃.store.contents key = w₂.store.contents key) :
    Stowed s key slot state w w₃ r := by
  cases h with
  | stored hm hfrom hto hw hv hslot hthere =>
    exact .stored (Store.lasting_moves.trans hbefore.2 hm) (hbefore.1.trans hfrom)
      (hto.trans hafter.1) hw hv (hslot'.trans hslot) (hrecord'.trans hthere)
  | kept hm hfrom hto hw hslot hsame =>
    exact .kept (Store.lasting_moves.trans hbefore.2 hm) (hbefore.1.trans hfrom)
      (hto.trans hafter.1) hw (hslot'.trans hslot) ((hrecord'.trans hsame).trans hrecord)

/-! ## One session after the other -/

/-- `Op.passivate` of ready sessions, one after the other, with the keys and the answers of all
rounds. -/
inductive Procession (s : Surroundings σ ι ω) :
    World σ ω → List (Key × Except CacheError Unit) → World σ ω → Prop where
  | nil {w : World σ ω} : Procession s w [] w
  | cons {w w₁ w' : World σ ω} {key : Key} {slot : Slot σ} {state : σ} {r : Except CacheError Unit}
      {rounds : List (Key × Except CacheError Unit)} (hslot : w.cache.slot? key = some slot)
      (hr : slot.IsReady state) (h : exec (passivate s key) w = (r, w₁))
      (h' : Procession s w₁ rounds w') : Procession s w ((key, r) :: rounds) w'

namespace Procession

variable {rounds : List (Key × Except CacheError Unit)} {r : Except CacheError Unit}

theorem parade (h : Procession s w rounds w') : Parade s w w' := by
  induction h with
  | nil => exact .nil
  | cons hslot hr hp _ ih => exact .cons hslot hr hp ih

/-- A `Procession` keeps the slots and the records of the keys that are not in `rounds`. -/
theorem spares (hs : s.Discreet) (h : Procession s w rounds w') (hk : k ∉ rounds.map (·.1)) :
    w'.cache.slot? k = w.cache.slot? k ∧ w'.store.contents k = w.store.contents k := by
  induction h with
  | nil => exact ⟨rfl, rfl⟩
  | @cons _ _ _ key _ _ _ _ hslot hr hp _ ih =>
    rw [List.map_cons, List.mem_cons, not_or] at hk
    obtain ⟨hslot', hrecord'⟩ := ih hk.2
    obtain ⟨hslot'', hrecord''⟩ := exec_passivate_spares hs hslot hr hp (Ne.symm hk.1)
    exact ⟨hslot'.trans hslot'', hrecord'.trans hrecord''⟩

theorem distinct (hs : s.Calm) (h : Procession s w rounds w') (hd : w.cache.Distinct) :
    w'.cache.Distinct := by
  induction h with
  | nil => exact hd
  | cons hslot hr hp _ ih =>
    obtain ⟨-, -, -, -, hcache⟩ := exec_passivate_calm hs hd hslot hr hp
    refine ih ?_
    rw [hcache]
    cases ‹Except CacheError Unit› with
    | ok _ => exact hd.unlink _
    | error _ => exact hd

/-- A `Procession` keeps the tracker's entry of a key, unless its passivation answered `.ok`. -/
theorem tracked (hs : s.Calm) (h : Procession s w rounds w') (hd : w.cache.Distinct)
    (hk : (k, .ok ()) ∉ rounds) : w'.cache.usage.find? k = w.cache.usage.find? k := by
  induction h with
  | nil => rfl
  | @cons w w₁ w' key slot state r rounds hslot hr hp _ ih =>
    rw [List.mem_cons, not_or] at hk
    obtain ⟨-, -, -, -, hcache⟩ := exec_passivate_calm hs hd hslot hr hp
    have hsame : w₁.cache.usage.find? k = w.cache.usage.find? k := by
      by_cases hkey : k = key
      · subst hkey
        cases r with
        | ok _ => exact absurd rfl hk.1
        | error _ => rw [hcache]; rfl
      · have hspares : w.Spares key w₁ :=
          (Harmless.passivate (local_spares key).harmless hs.discreet).at hp
        exact hspares.tracked k hkey
    have hfirst : Procession s w [(key, r)] w₁ := .cons hslot hr hp .nil
    exact (ih (hfirst.distinct hs hd) hk.2).trans hsame

theorem onward (hs : s.Discreet) (h : Procession s w rounds w') : Onward w w' :=
  h.parade.keeps_all (fun _ => allows_onward _) hs

/-- A key that is in `rounds` once was ready at first, and is `Stowed` at the end by its answer. -/
theorem stowed (hs : s.Calm) (h : Procession s w rounds w') (hd : w.cache.Distinct)
    (hnodup : (rounds.map (·.1)).Nodup) (hmem : (key, r) ∈ rounds) :
    ∃ slot state, w.cache.slot? key = some slot ∧ slot.IsReady state ∧
      Stowed s key slot state w w' r := by
  induction h with
  | nil => exact absurd hmem List.not_mem_nil
  | @cons w w₁ w' first slot state answer rounds hslot hr hp hrest ih =>
    obtain ⟨hnot, hnodup⟩ := List.nodup_cons.mp hnodup
    have hfirst : Procession s w [(first, answer)] w₁ := .cons hslot hr hp .nil
    obtain hmem | hmem := List.mem_cons.mp hmem
    · cases hmem
      obtain ⟨hslot', hrecord'⟩ := hrest.spares hs.discreet hnot
      exact ⟨slot, state, hslot, hr, (exec_passivate_stowed hs hd hslot hr hp).within
        ((allows_onward fun _ _ => True).refl w) (hrest.onward hs.discreet) rfl hslot' hrecord'⟩
    · have hne : key ∉ [(first, answer)].map (·.1) := by
        simpa using fun he : key = first => hnot (List.mem_map.mpr ⟨_, hmem, he⟩)
      obtain ⟨hslot', hrecord'⟩ := hfirst.spares hs.discreet hne
      obtain ⟨slot', state', hkey, hready, hstowed⟩ := ih (hfirst.distinct hs hd) hnodup hmem
      exact ⟨slot', state', hslot'.symm.trans hkey, hready, hstowed.within
        (hfirst.onward hs.discreet) ((allows_onward fun _ _ => True).refl w') hrecord' rfl rfl⟩

end Procession

/-! ## The two passages -/

theorem exec_passivateCounting_eq {report : SweepReport} {r : Except CacheError Unit}
    (h : exec (passivate s key) w = (r, w')) :
    exec (passivateCounting s key report) w = (.ok (report.tallied [(key, r)]), w') := by
  rw [passivateCounting, exec_bind_ok (exec_attempt _ w), h]
  cases r <;> rfl

/-- `Op.sweepKeys` over keys that are all ready and overdue at first, each once: a `Procession` with
exactly these keys. -/
theorem exec_sweepKeys_all (hs : s.Discreet) {timeout : Duration} {keys : List Key}
    (report : SweepReport) (hnodup : keys.Nodup)
    (hdue : ∀ key ∈ keys, ∃ slot state, w.cache.slot? key = some slot ∧ slot.IsReady state ∧
      timeout < w.now.since slot.lastAccess) :
    ∃ rounds w', exec (sweepKeys s timeout keys report) w = (.ok (report.tallied rounds), w') ∧
      Procession s w rounds w' ∧ rounds.map (·.1) = keys := by
  induction keys generalizing w report with
  | nil => exact ⟨[], w, rfl, .nil, rfl⟩
  | cons key rest ih =>
    obtain ⟨hnot, hnodup⟩ := List.nodup_cons.mp hnodup
    obtain ⟨slot, state, hslot, hr, hlong⟩ := hdue key List.mem_cons_self
    rcases hp : exec (passivate s key) w with ⟨r, w₁⟩
    have hfirst : Procession s w [(key, r)] w₁ := .cons hslot hr hp .nil
    have hnext : ∀ other ∈ rest, ∃ slot state, w₁.cache.slot? other = some slot ∧
        slot.IsReady state ∧ timeout < w₁.now.since slot.lastAccess := by
      intro other hother
      obtain ⟨slot', state', hslot', hr', hlong'⟩ := hdue other (List.mem_cons_of_mem _ hother)
      have hne : other ∉ [(key, r)].map (·.1) := by
        simpa using fun he : other = key => hnot (he ▸ hother)
      refine ⟨slot', state', (hfirst.spares hs hne).1.trans hslot', hr', ?_⟩
      exact Nat.lt_of_lt_of_le hlong' (Instant.since_mono (hfirst.onward hs).1.1 _)
    obtain ⟨rounds, w', hrest, hprocession, hkeys⟩ :=
      ih (report.tallied [(key, r)]) hnodup hnext
    refine ⟨(key, r) :: rounds, w', ?_, .cons hslot hr hp hprocession, by rw [List.map_cons, hkeys]⟩
    rw [sweepKeys, exec_bind_ok (exec_now _), exec_bind_ok (exec_cache _), hslot]
    have hcond :
        (!slot.held && slot.stage = .ready && timeout < w.now.since slot.lastAccess) = true := by
      simp [hr.held, hr.stage, hlong]
    dsimp only
    rw [if_pos hcond, exec_bind_ok (exec_passivateCounting_eq hp), hrest, SweepReport.tallied_cons]

/-- `Op.passivateStays` over slots as they are: a `Procession` with exactly the keys whose slots are
ready. -/
theorem exec_passivateStays_all (hs : s.Discreet) {slots : List (Key × Slot σ)}
    (report : SweepReport) (hnodup : (slots.map (·.1)).Nodup)
    (hslots : ∀ e ∈ slots, w.cache.slot? e.1 = some e.2)
    (hready : ∀ e ∈ slots, e.2.stage = .ready → ∃ state, e.2.IsReady state) :
    ∃ rounds w', exec (passivateStays s (slots.map fun e => (e.1, e.2.stay)) report) w =
        (.ok (report.tallied rounds), w') ∧
      Procession s w rounds w' ∧
      rounds.map (·.1) = (slots.filter (·.2.stage = .ready)).map (·.1) := by
  induction slots generalizing w report with
  | nil => exact ⟨[], w, rfl, .nil, rfl⟩
  | cons e rest ih =>
    obtain ⟨key, slot⟩ := e
    obtain ⟨hnot, hnodup⟩ := List.nodup_cons.mp hnodup
    have hslot : w.cache.slot? key = some slot := hslots (key, slot) List.mem_cons_self
    have hready' := fun e he => hready e (List.mem_cons_of_mem _ he)
    rw [List.map_cons, passivateStays, exec_bind_ok (exec_cache _), hslot]
    dsimp only
    by_cases hstage : slot.stage = .ready
    · obtain ⟨state, hr⟩ : ∃ state, slot.IsReady state :=
        hready (key, slot) List.mem_cons_self hstage
      rcases hp : exec (passivate s key) w with ⟨r, w₁⟩
      have hfirst : Procession s w [(key, r)] w₁ := .cons hslot hr hp .nil
      have hnext : ∀ e ∈ rest, w₁.cache.slot? e.1 = some e.2 := by
        intro e he
        have hne : e.1 ∉ [(key, r)].map (·.1) := by
          simpa using fun hk : e.1 = key => hnot (List.mem_map.mpr ⟨e, he, hk⟩)
        exact (hfirst.spares hs hne).1.trans (hslots e (List.mem_cons_of_mem _ he))
      obtain ⟨rounds, w', hrest, hprocession, hkeys⟩ :=
        ih (report.tallied [(key, r)]) hnodup hnext hready'
      refine ⟨(key, r) :: rounds, w', ?_, .cons hslot hr hp hprocession, ?_⟩
      · have hcond : (slot.stay = slot.stay && !slot.held && slot.stage = .ready) = true := by
          simp [hr.held, hr.stage]
        rw [if_pos hcond, exec_bind_ok (exec_passivateCounting_eq hp), hrest,
          SweepReport.tallied_cons]
      · rw [List.filter_cons_of_pos (by simpa using hstage), List.map_cons, List.map_cons, hkeys]
    · obtain ⟨rounds, w', hrest, hprocession, hkeys⟩ :=
        ih report hnodup (fun e he => hslots e (List.mem_cons_of_mem _ he)) hready'
      refine ⟨rounds, w', ?_, hprocession, ?_⟩
      · have hcond : ¬(slot.stay = slot.stay && !slot.held && slot.stage = .ready) = true := by
          simp [hstage]
        rw [if_neg hcond, hrest]
      · rw [List.filter_cons_of_neg (by simpa using hstage), hkeys]

/-- `Op.passivateAll` is a `Procession` with exactly the keys that are ready, each once, and its
report is `tallied` from it. -/
theorem exec_passivateAll_procession (hs : s.Discreet) {d : Desk σ ι} (hx : Sound s (w.scene d)) :
    ∃ rounds w',
      exec (passivateAll s) w =
        (.ok (SweepReport.tallied { examined := w.cache.slots.length } rounds), w') ∧
      Procession s w rounds w' ∧
      rounds.map (·.1) = (w.cache.slots.filter (·.2.stage = .ready)).map (·.1) ∧
      (rounds.map (·.1)).Nodup ∧
      ∀ key, key ∈ rounds.map (·.1) ↔
        ∃ slot, w.cache.slot? key = some slot ∧ slot.stage = .ready := by
  have hdistinct : w.cache.Distinct := hx.distinct
  obtain ⟨rounds, w', hrun, hprocession, hkeys⟩ := exec_passivateStays_all hs (w := w)
    { examined := w.cache.slots.length } hdistinct (fun e he => Cache.slot?_of_mem hdistinct he)
    fun e he hstage => hx.ready_of_stage (Cache.slot?_of_mem hdistinct he) hstage
  refine ⟨rounds, w', ?_, hprocession, hkeys,
    hkeys ▸ List.Nodup.sublist (List.filter_sublist.map _) hdistinct, fun key => ?_⟩
  · rw [passivateAll, exec_bind_ok (exec_cache _)]
    simpa using hrun
  · rw [hkeys]
    simp only [List.mem_map, List.mem_filter, decide_eq_true_eq]
    constructor
    · rintro ⟨⟨_, slot⟩, ⟨hmem, hstage⟩, rfl⟩
      exact ⟨slot, Cache.slot?_of_mem hdistinct hmem, hstage⟩
    · rintro ⟨slot, hslot, hstage⟩
      exact ⟨(key, slot), ⟨Cache.mem_of_slot? hslot, hstage⟩, rfl⟩

theorem exec_perform_passivateAll {report : SweepReport}
    (h : exec (passivateAll s) w = (.ok report, w')) :
    exec ((Request.passivateAll : Request σ ι).perform s) w = (.ok (.report report), w') := by
  rw [Request.perform, exec_bind_ok h]
  rfl

/-! ## Chains -/

/-- Where every `put` passes, `Op.passivateAll` writes each ready state of `Codec.chain`. A state
longer than `Envelope.stateDepth` does not decode from the record. -/
theorem exec_passivateAll_chain {s : Surroundings Nat ι ω} (hs : s.Calm) (hcodec : s.codec = .chain)
    {w : World Nat ω} {d : Desk Nat ι} (hx : Sound s (w.scene d))
    (hnow : .earliest ≤ w.now ∧ w.now ≤ .latest) :
    ∃ report w', exec (passivateAll s) w = (.ok report, w') ∧ (report.failed = 0 →
      ∀ key slot n, w.cache.slot? key = some slot → slot.IsReady n → Envelope.stateDepth < n →
        w'.cache.slot? key = none ∧ ∃ bytes, w'.store.contents key = some bytes ∧
          Store.stateOf s.codec key bytes = .error .malformed) := by
  obtain ⟨rounds, w', hrun, hprocession, -, hnodup, htried⟩ :=
    exec_passivateAll_procession hs.discreet hx
  refine ⟨_, w', hrun, fun hfailed key slot n hslot hr hdeep => ?_⟩
  obtain ⟨⟨_, r⟩, hmem, rfl⟩ := List.mem_map.mp ((htried key).mpr ⟨slot, hslot, hr.stage⟩)
  obtain ⟨slot', n', hslot', hr', hstowed⟩ := hprocession.stowed hs hx.distinct hnodup hmem
  obtain rfl := Option.some.inj (hslot.symm.trans hslot')
  obtain rfl := Option.some.inj (hr.payload.symm.trans hr'.payload)
  cases hstowed with
  | stored _ hfrom _ _ hv hgone hrecord =>
    rw [hcodec] at hv ⊢
    obtain rfl := Except.ok.inj hv
    exact ⟨hgone, _, hrecord,
      Store.stateOf_chain (Int.le_trans hnow.1 hfrom.1) (hfrom.2 hnow.2) hdeep⟩
  | kept =>
    have hnone : rounds.countP (!·.2.isOk) = 0 := by simpa [SweepReport.tallied] using hfailed
    exact absurd rfl (List.countP_eq_zero.mp hnone _ hmem)

end Op

/-- Surroundings of a cache with `maxSize := 1` whose states are those of `Codec.chain`. -/
def Surroundings.chained : Surroundings Nat Nat Journal :=
  .recording { maxSize := 1 } .chain (fun _ _ => false) .ofNat

/-- A cache in `Surroundings.chained`, opened over `backend`, without faults. -/
def Traffic.chained (backend : Backend) : Traffic Nat Nat Journal :=
  .opened .chained { Store.empty fun _ _ => none with backend } ⟨0⟩ {}

end SessionCache
