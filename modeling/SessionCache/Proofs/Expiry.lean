import SessionCache.Proofs.Conservation
import SessionCache.Proofs.Store.Purging
import SessionCache.Proofs.Traffic.Procession

/-!
# The count of expired records

A purge deletes records one after the other, and what it deleted before it failed stays deleted. But
its answer is then the failure alone, so nobody learns of those keys: they are not counted.

* `Store.exec_purge_gone`: what a purge deletes, whether it fails or not.
* `World.Outdated`: the keys whose records a deletion of old records may delete.
* `Op.Expired`: the deletion of old records ends with all of them counted, or with none.
* `Op.exec_sweep_eq`: a sweep is the passivation of idle sessions, which never fails, and then the
  deletion of old records.
* `Op.expiry`: what is counted, by the deletion alone and as the end of a sweep.
* `Op.expiry_lost`: a record that was deleted and not counted.
-/

namespace SessionCache

variable {σ ι ω : Type} {s : Surroundings σ ι ω} {w w' : World σ ω}

/-! ## What is deleted -/

/-- `f'` is `f` without the records of `keys`. -/
structure Gone (f f' : Key → Option ByteArray) (keys : List Key) : Prop where
  nodup : keys.Nodup
  mem_iff : ∀ key, key ∈ keys ↔ f key ≠ none ∧ f' key = none
  others : ∀ key, key ∉ keys → f' key = f key

namespace Gone

variable {f f' f'' : Key → Option ByteArray} {key : Key} {keys : List Key}

theorem refl (f : Key → Option ByteArray) : Gone f f [] :=
  ⟨.nil, fun key => by simp, fun _ _ => rfl⟩

/-- Deletion of `key` and then of `keys`. -/
theorem cons (hkey : f key ≠ none) (h : Gone (Function.update f key none) f' keys) :
    Gone f f' (key :: keys) := by
  have hnot : key ∉ keys := fun hmem => ((h.mem_iff key).mp hmem).1 (Function.update_self ..)
  refine ⟨List.nodup_cons.mpr ⟨hnot, h.nodup⟩, fun other => ?_, fun other hother => ?_⟩
  · by_cases ho : other = key
    · subst ho
      have hgone := h.others other hnot
      rw [Function.update_self] at hgone
      simp [hkey, hgone]
    · rw [List.mem_cons, h.mem_iff, Function.update_of_ne ho]
      simp [ho]
  · rw [List.mem_cons, not_or] at hother
    rw [h.others other hother.2, Function.update_of_ne hother.1]

end Gone

namespace Store

variable {s s' : Store}

/-- `.ok a`, or some failure, stays so under `Except.map`. -/
theorem map_ok_or_error {ε α β : Type} {a : α} {r : Except ε α} (f : α → β)
    (h : r = .ok a ∨ ∃ e, r = .error e) : r.map f = .ok (f a) ∨ ∃ e, r.map f = .error e := by
  obtain rfl | ⟨e, rfl⟩ := h
  · exact .inl rfl
  · exact .inr ⟨e, rfl⟩

/-- `Store.purge` answers the keys that it deleted, or fails. In both cases `s'` is `s` without the
records of some `keys`, each of them in `metas` with a `storedAt` before `cutoff`. -/
theorem exec_purge_gone {cutoff : Instant} {metas : List RecordMeta}
    {r : Except StoreError (List Key)} (h : exec (purge cutoff metas) s = (r, s')) :
    ∃ keys, Gone s.contents s'.contents keys ∧
      (∀ key ∈ keys, ∃ m ∈ metas, m.key = key ∧ m.storedAt < cutoff) ∧
      (r = .ok keys ∨ ∃ e, r = .error e) := by
  induction metas generalizing s r with
  | nil => cases h; exact ⟨[], .refl _, by simp, .inl rfl⟩
  | cons m rest ih =>
    have hlater : ∀ {keys : List Key},
        (∀ key ∈ keys, ∃ m ∈ rest, m.key = key ∧ m.storedAt < cutoff) →
        ∀ key ∈ keys, ∃ x ∈ m :: rest, x.key = key ∧ x.storedAt < cutoff :=
      fun holder key hmem => List.exists_mem_cons_of_exists (holder key hmem)
    rw [purge] at h
    by_cases hold : m.storedAt < cutoff
    · rw [if_pos hold] at h
      obtain ⟨found, s₁, hd, h⟩ | ⟨e, hd, rfl⟩ := exec_bind_cases h
      · obtain ⟨answer, hrest, rfl⟩ := exec_bind_pure h
        obtain ⟨keys, hgone, holder, hanswer⟩ := ih hrest
        obtain ⟨-, hcontents, rfl⟩ := delete_contents hd
        rw [hcontents] at hgone
        by_cases hm : s.contents m.key = none
        · rw [← hm, Function.update_eq_self] at hgone
          exact ⟨keys, hgone, hlater holder, by simpa [hm] using map_ok_or_error _ hanswer⟩
        · have hcounted := map_ok_or_error (m.key :: ·) hanswer
          refine ⟨m.key :: keys, hgone.cons hm, ?_, ?_⟩
          · exact List.forall_mem_cons.mpr ⟨⟨m, List.mem_cons_self, rfl, hold⟩, hlater holder⟩
          · simpa [Option.isSome_iff_ne_none.mpr hm] using hcounted
      · obtain ⟨-, hcontents, -⟩ := delete_contents hd
        exact ⟨[], hcontents ▸ .refl _, by simp, .inr ⟨e, rfl⟩⟩
    · rw [if_neg hold, exec_bind_ok (exec_pure false s)] at h
      obtain ⟨answer, hrest, rfl⟩ := exec_bind_pure h
      obtain ⟨keys, hgone, holder, hanswer⟩ := ih hrest
      exact ⟨keys, hgone, hlater holder, map_ok_or_error _ hanswer⟩

theorem exec_purgeOlderThan_gone {cutoff : Instant} {r : Except CacheError (List Key)}
    (h : exec (purgeOlderThan cutoff) s = (r, s')) :
    ∃ keys, Gone s.contents s'.contents keys ∧
      (∀ key ∈ keys, ∃ metas m, s.listing = .ok metas ∧ m ∈ metas ∧ m.key = key ∧
        m.storedAt < cutoff) ∧
      (r = .ok keys ∨ ∃ e, r = .error (.store e)) := by
  cases hlist : s.fault s.calls .list with
  | some e =>
    rw [purgeOlderThan, records, exec_bind, exec_lifted, exec_list_eq, hlist] at h
    cases h
    exact ⟨[], .refl _, by simp, .inr ⟨e, rfl⟩⟩
  | none =>
    rw [exec_purgeOlderThan_eq hlist] at h
    cases hlisting : s.listing with
    | error e =>
      rw [hlisting] at h
      cases h
      exact ⟨[], .refl _, by simp, .inr ⟨e, rfl⟩⟩
    | ok metas =>
      rw [hlisting] at h
      dsimp only at h
      rcases hp : exec (purge cutoff metas) (s.called s.backend) with ⟨answer, s₂⟩
      obtain ⟨keys, hgone, holder, hanswer⟩ := exec_purge_gone hp
      rw [exec_lifted, hp] at h
      cases h
      refine ⟨keys, hgone, fun key hmem => ?_, ?_⟩
      · obtain ⟨m, hm, hmatch⟩ := holder key hmem
        exact ⟨metas, m, rfl, hm, hmatch⟩
      · obtain rfl | ⟨e, rfl⟩ := hanswer
        · exact .inl rfl
        · exact .inr ⟨e, rfl⟩

end Store

/-- `key` is listed with a `storedAt` before `now - removalTimeout`. -/
def World.Outdated (s : Surroundings σ ι ω) (w : World σ ω) (key : Key) : Prop :=
  ∃ timeout metas m, s.settings.removalTimeout = some timeout ∧ w.store.listing = .ok metas ∧
    m ∈ metas ∧ m.key = key ∧ m.storedAt < w.now.before timeout

/-- The report of `Op.sweep`: `expired` is the answer `n` of `expirePassivated`, or stays 0. -/
def SweepReport.withExpired (report : SweepReport) : Except CacheError Nat → SweepReport
  | .ok n => { report with expired := n }
  | .error _ => report

namespace Op

/-! ## What is counted -/

/-- With `n` records deleted, `expirePassivated` answers `n` and adds it to `counters.expired`; or
it fails and adds nothing. -/
inductive Expired (w w' : World σ ω) (n : Nat) : Except CacheError Nat → Prop where
  | counted (h : w'.cache = w.cache.countExpired n) : Expired w w' n (.ok n)
  | failed (e : StoreError) (h : w'.cache = w.cache) : Expired w w' n (.error (.store e))

theorem exec_expirePassivated_gone {r : Except CacheError Nat}
    (h : exec (expirePassivated s) w = (r, w')) :
    ∃ keys, Gone w.store.contents w'.store.contents keys ∧ Expired w w' keys.length r ∧
      w'.now = w.now ∧ ∀ key ∈ keys, w.Outdated s key := by
  rw [expirePassivated] at h
  split at h
  · cases h
    exact ⟨[], .refl _, .counted rfl, rfl, by simp⟩
  · rename_i timeout htimeout
    rw [exec_bind_ok (exec_now _), exec_bind, exec_onStore] at h
    rcases hp : exec (Store.purgeOlderThan (w.now.before timeout)) w.store with ⟨answer, store⟩
    obtain ⟨keys, hgone, holder, hanswer⟩ := Store.exec_purgeOlderThan_gone hp
    have hold : ∀ key ∈ keys, w.Outdated s key := by
      intro key hmem
      obtain ⟨metas, m, hlisting, hm, hkey, hbefore⟩ := holder key hmem
      exact ⟨timeout, metas, m, htimeout, hlisting, hm, hkey, hbefore⟩
    rw [hp] at h
    obtain rfl | ⟨e, rfl⟩ := hanswer
    · cases h
      exact ⟨keys, hgone, .counted rfl, rfl, hold⟩
    · cases h
      exact ⟨keys, hgone, .failed e rfl, rfl, hold⟩

/-! ## In a sweep -/

/-- `sweepKeys` never fails, and leaves `report.expired`. -/
theorem exec_sweepKeys_ok (timeout : Duration) (keys : List Key) (report : SweepReport)
    (w : World σ ω) :
    ∃ report' w', exec (sweepKeys s timeout keys report) w = (.ok report', w') ∧
      report'.expired = report.expired := by
  induction keys generalizing w report with
  | nil => exact ⟨report, w, rfl, rfl⟩
  | cons key rest ih =>
    rw [sweepKeys, exec_bind_ok (exec_now _), exec_bind_ok (exec_cache _)]
    split
    · split
      · rcases hp : exec (passivate s key) w with ⟨r, w₁⟩
        obtain ⟨report', w', hrest, hexpired⟩ := ih (report.tallied [(key, r)]) w₁
        exact ⟨report', w', by rw [exec_bind_ok (exec_passivateCounting_eq hp), hrest], hexpired⟩
      · exact ih report w
    · exact ih report w

theorem exec_sweepIdle_ok (s : Surroundings σ ι ω) (w : World σ ω) :
    ∃ report w', exec (sweepIdle s) w = (.ok report, w') ∧ report.expired = 0 := by
  rw [sweepIdle]
  split
  · exact ⟨{}, w, rfl, rfl⟩
  · rw [exec_bind_ok (exec_cache _), exec_bind_ok (exec_now _)]
    exact exec_sweepKeys_ok ..

/-- `counters.expired` is the same. -/
def SameExpired (w w' : World σ ω) : Prop :=
  w'.cache.counters.expired = w.cache.counters.expired

theorem harmless_sameExpired (key : Key) : Harmless key (SameExpired (σ := σ) (ω := ω)) where
  refl _ := rfl
  trans h h' := Eq.trans h' h
  aside h := by rw [SameExpired, h.cache]
  store _ := rfl
  cache h _ _ := h.within.tally.2

theorem keeps_sweepKeys {R : World σ ω → World σ ω → Prop} (hR : ∀ key, Harmless key R)
    (hs : s.Discreet) (timeout : Duration) (keys : List Key) (report : SweepReport) :
    Keeps R (sweepKeys s timeout keys report) := by
  have hall := hR (.ofNat 0)
  induction keys generalizing report with
  | nil => exact hall.pure _
  | cons key rest ih =>
    have hcount : Keeps R (passivateCounting s key report) := by
      refine hall.bind (hall.attempt (Harmless.passivate (hR key) hs)) fun answer => ?_
      cases answer <;> exact hall.pure _
    refine hall.bind hall.now fun now => hall.bind hall.read fun c => ?_
    split
    · split
      · exact hall.bind hcount fun report => ih report
      · exact ih report
    · exact ih report

theorem keeps_sweepIdle {R : World σ ω → World σ ω → Prop} (hR : ∀ key, Harmless key R)
    (hs : s.Discreet) : Keeps R (sweepIdle s) := by
  have hall := hR (.ofNat 0)
  unfold sweepIdle
  split
  · exact hall.pure _
  · exact hall.bind hall.read fun c => hall.bind hall.now fun now => keeps_sweepKeys hR hs _ _ _

/-- `Op.sweep` is `sweepIdle` followed by `expirePassivated`, whose failure it drops. -/
theorem exec_sweep_eq {report : SweepReport} {w₁ : World σ ω} {r : Except CacheError Nat}
    (hidle : exec (sweepIdle s) w = (.ok report, w₁))
    (hold : exec (expirePassivated s) w₁ = (r, w')) :
    exec (sweep s) w = (.ok (report.withExpired r), w') := by
  rw [sweep, exec_bind_ok hidle, exec_bind_ok (exec_attempt _ w₁), hold]
  cases r <;> rfl

/-- `Op.expirePassivated`, alone or in `Op.sweep`, deletes the records of some `keys`. Either
`keys.length` is its answer and is added to `counters.expired` and to `report.expired`; or it fails,
and the records deleted until then are counted in none of the three. -/
theorem expiry (s : Surroundings σ ι ω) (w : World σ ω) :
    (∃ keys r w', exec (expirePassivated s) w = (r, w') ∧
      Gone w.store.contents w'.store.contents keys ∧ Expired w w' keys.length r) ∧
    ∃ keys report r w₁ w', exec (sweepIdle s) w = (.ok report, w₁) ∧ report.expired = 0 ∧
      (s.Discreet → w₁.cache.counters.expired = w.cache.counters.expired) ∧
      exec (expirePassivated s) w₁ = (r, w') ∧
      Gone w₁.store.contents w'.store.contents keys ∧ Expired w₁ w' keys.length r ∧
      exec (sweep s) w = (.ok (report.withExpired r), w') := by
  constructor
  · rcases h : exec (expirePassivated s) w with ⟨r, w'⟩
    obtain ⟨keys, hgone, hend, -⟩ := exec_expirePassivated_gone h
    exact ⟨keys, r, w', rfl, hgone, hend⟩
  · obtain ⟨report, w₁, hidle, hzero⟩ := exec_sweepIdle_ok s w
    rcases h : exec (expirePassivated s) w₁ with ⟨r, w'⟩
    obtain ⟨keys, hgone, hend, -⟩ := exec_expirePassivated_gone h
    refine ⟨keys, report, r, w₁, w', hidle, hzero, fun hs => ?_, h, hgone, hend,
      exec_sweep_eq hidle h⟩
    exact (keeps_sweepIdle harmless_sameExpired hs).at hidle

/-- Two records past the removal timeout, and a store that fails to delete the one of `.ofNat 1`. -/
def twoOld : World Bool Journal where
  cache := {}
  store :=
    { Store.empty fun _ call =>
        if call = .delete (.ofNat 1) then some (.io (.other "stuck")) else none with
      backend := .memory ⟨[⟨.ofNat 0, .empty, ⟨0⟩⟩, ⟨.ofNat 1, .empty, ⟨0⟩⟩]⟩ }
  now := ⟨20000000⟩
  outside := {}

/-- The store of `twoOld` without the record of `.ofNat 0`. -/
def oneOld : Store :=
  { twoOld.store with backend := .memory ⟨[⟨.ofNat 1, .empty, ⟨0⟩⟩]⟩, calls := 3 }

theorem exec_expirePassivated_twoOld :
    exec (expirePassivated (.brief fun _ _ => false)) twoOld =
      (.error (.store (.io (.other "stuck"))), { twoOld with store := oneOld }) := by
  have hlisting : twoOld.store.listing =
      .ok [Entries.metaOf (.ofNat 0, .empty, ⟨0⟩), Entries.metaOf (.ofNat 1, .empty, ⟨0⟩)] :=
    congrArg Except.ok (List.mergeSort_of_pairwise (by decide))
  have hpurge : exec (Store.purgeOlderThan ⟨10000000⟩) twoOld.store =
      (.error (.store (.io (.other "stuck"))), oneOld) := by
    rw [Store.exec_purgeOlderThan_eq rfl, hlisting]
    rfl
  have hfails :
      exec (onStore (Store.purgeOlderThan ⟨10000000⟩) : Op Bool Journal (List Key)) twoOld =
        (.error (.store (.io (.other "stuck"))), { twoOld with store := oneOld }) := by
    rw [exec_onStore, hpurge]
  exact (exec_bind_ok (exec_now twoOld)).trans (exec_bind_error hfails)

/-- In `twoOld` the record of `.ofNat 0` is deleted; `counters.expired` and `report.expired` stay
0. -/
theorem expiry_lost :
    twoOld.store.contents (.ofNat 0) ≠ none ∧
      (∃ r w', exec (expirePassivated (.brief fun _ _ => false)) twoOld = (.error r, w') ∧
        w'.store.contents (.ofNat 0) = none ∧ w'.cache.counters.expired = 0) ∧
      ∃ w', exec (sweep (.brief fun _ _ => false)) twoOld = (.ok {}, w') ∧
        w'.store.contents (.ofNat 0) = none ∧ w'.cache.counters.expired = 0 :=
  ⟨by decide, ⟨_, _, exec_expirePassivated_twoOld, rfl, rfl⟩,
    _, exec_sweep_eq rfl exec_expirePassivated_twoOld, rfl, rfl⟩

end Op

end SessionCache
