import SessionCache.Proofs.Traffic.Exchange
import SessionCache.Proofs.Traffic.Serving

/-!
# Records that are too old

Only sweeps and `Op.expirePassivated` ask how old a record is. Whatever else happens could happen in
the same way if records did not get too old (`Surroundings.ageless`), so what holds there holds of
it.

* `Step.ageless`: a step that deletes no old records.
* `Op.exec_expirePassivated_of_deletes`: what the deletion of old records does, exactly.
-/

namespace SessionCache

variable {σ ι ω : Type} {s : Surroundings σ ι ω} {x : Scene σ ι ω} {d : Desk σ ι}
  {t t' : Traffic σ ι ω} {event : Traffic.Event σ ι} {w w' : World σ ω} {key : Key}

/-- `s` without `removalTimeout`. -/
def Surroundings.ageless (s : Surroundings σ ι ω) : Surroundings σ ι ω :=
  { s with settings := { s.settings with removalTimeout := none } }

theorem Surroundings.Discreet.ageless (hs : s.Discreet) : s.ageless.Discreet :=
  ⟨hs.callback, hs.instantiate, hs.freshKey, hs.lock⟩

theorem sound_ageless : Sound s.ageless x ↔ Sound s x :=
  ⟨fun h => ⟨h.distinct, h.tracked, h.stands, h.room, h.bound, h.familiar⟩,
    fun h => ⟨h.distinct, h.tracked, h.stands, h.room, h.bound, h.familiar⟩⟩

theorem Op.get_ageless : get s.ageless key = get s key :=
  (Lifecycle.Alike.refl s.lifecycle).get key

theorem Op.Parade.ageless (h : Parade s w w') : Parade s.ageless w w' := by
  induction h with
  | nil => exact .nil
  | cons hslot hr hp _ ih => exact .cons hslot hr hp ih

theorem Request.perform_ageless {request : Request σ ι} (ha : ¬request.Ages) :
    request.perform s.ageless = request.perform s :=
  perform_exchanged (.refl s.lifecycle) request fun hages => absurd hages ha

/-- A step that neither sweeps nor expires is a step in `s.ageless`. -/
theorem Step.ageless (h : Step s t event t') (ha : ¬event.Ages) : Step s.ageless t event t' := by
  cases h with
  | pass h hc => exact .pass h hc
  | tamper backend => exact .tamper backend
  | edit state' h => exact .edit state' h
  | serve hq hw => exact .serve hq (by rwa [Request.perform_ageless ha])
  | finish h hw => exact .finish h hw
  | get h hw => exact .get h (by rwa [Op.get_ageless])
  | miss h hw => exact .miss h hw
  | fetch h hw => exact .fetch h hw
  | create args => exact .create args
  | look h hd hw => exact .look h hd hw
  | fail h hd hw hw' => exact .fail h hd hw hw'
  | giveUp h hd hw => exact .giveUp h hd hw
  | introduce h hk hw => exact .introduce h hk hw
  | settle h hw => exact .settle h hw

/-- `Counters.expired` goes up by `n`. -/
def Cache.countExpired (c : Cache σ) (n : Nat) : Cache σ :=
  { c with counters := { c.counters with expired := c.counters.expired + n } }

@[simp, grind =] theorem Cache.slot?_countExpired (c : Cache σ) (n : Nat) (key : Key) :
    (c.countExpired n).slot? key = c.slot? key := rfl

/-- `Store.purgeOlderThan` on a store that `Deletes` answers the keys of the records that it
deleted. -/
theorem Op.exec_purge_of_deletes (hd : w.store.Deletes) {cutoff : Instant}
    {r : Except CacheError (List Key)}
    (h : exec (onStore (Store.purgeOlderThan cutoff)) w = (r, w')) :
    ∃ keys : List Key, (r = .ok keys ∨ keys = [] ∧ ∃ e, r = .error e) ∧ keys.Nodup ∧
      (∀ key ∈ keys, w.store.contents key ≠ none) ∧
      ∀ d : Desk σ ι, w'.scene d =
        { w.scene d with
          contents := fun key => if key ∈ keys then none else w.store.contents key } := by
  rw [exec_onStore] at h
  rcases hp : exec (Store.purgeOlderThan cutoff) w.store with ⟨answer, store⟩
  obtain ⟨hgate, -⟩ := Store.exec_purgeOlderThan hp
  obtain ⟨keys, hanswer, hnodup, hthere, hcontents⟩ := Store.exec_purgeOlderThan_of_deletes hd hp
  rw [hp] at h
  cases h
  exact ⟨keys, hanswer, hnodup, hthere, fun d => (World.scene_store hgate d).trans (by rw [hcontents])⟩

/-- `Op.expirePassivated` on a store that `Deletes` deletes records of some keys and adds their
number to `Counters.expired`. -/
theorem Op.exec_expirePassivated_of_deletes (hd : w.store.Deletes) {r : Except CacheError Nat}
    (h : exec (expirePassivated s) w = (r, w')) :
    ∃ keys : List Key, keys.Nodup ∧ (∀ key ∈ keys, w.store.contents key ≠ none) ∧
      ∀ d : Desk σ ι, w'.scene d =
        { w.scene d with
          cache := w.cache.countExpired keys.length
          contents := fun key => if key ∈ keys then none else w.store.contents key } := by
  rw [expirePassivated] at h
  split at h
  · cases h
    exact ⟨[], .nil, by simp, fun d => by simp [World.scene, Cache.countExpired]⟩
  · rw [exec_bind_ok (exec_now _)] at h
    obtain ⟨purged, w₁, hp, h⟩ | ⟨e, hp, -⟩ := exec_bind_cases h
    · obtain ⟨keys, ⟨⟨⟩⟩ | ⟨-, _, ⟨⟩⟩, hnodup, hthere, hscene⟩ := exec_purge_of_deletes (ι := ι) hd hp
      cases h
      refine ⟨purged, hnodup, hthere, fun d => ?_⟩
      have hcache : w₁.cache = w.cache := congrArg Scene.cache (hscene d)
      have hcount : ∀ counters : Counters, ({ w₁ with
          cache := { w₁.cache with counters } } : World σ ω).scene d =
            { w₁.scene d with cache := { w₁.cache with counters } } := fun _ => rfl
      refine (hcount _).trans ?_
      rw [hscene d, hcache]
      rfl
    · obtain ⟨keys, ⟨⟨⟩⟩ | ⟨rfl, -⟩, hnodup, hthere, hscene⟩ := exec_purge_of_deletes (ι := ι) hd hp
      exact ⟨[], hnodup, hthere, hscene⟩

end SessionCache
