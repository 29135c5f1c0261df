import SessionCache.Proofs.Removal
import SessionCache.Proofs.Traffic.Waiting

/-!
# Asking for a session that is not there

To look a key up in the store, `Op.get` and `Op.remove` give it a placeholder, which goes away again
when there is no record. It never had a unit of room, and the key was not tracked, so nothing of it
is left. That comes before the search for room: nobody waits, nothing is evicted, and no callback
runs.

* `World.consulted`: the store was asked once, and a placeholder came and went.
* `Op.get_of_absent`, `Op.remove_of_absent`: that is all that happens.
* `Run.absence`: so it is in every state that a cache in use gets to.
-/

namespace SessionCache

variable {σ ι ι' ω : Type} {s : Surroundings σ ι ω} {s' : Surroundings σ ι' ω}
  {t t' : Traffic σ ι ω} {events : List (Traffic.Event σ ι)} {w : World σ ω} {key : Key}

/-- `w` after one call of `store` for a key without a record and a placeholder that was linked and
unlinked: only `store.calls`, `signals` and `stays` went up, by one each. -/
def World.consulted (w : World σ ω) : World σ ω :=
  { w with
    store := w.store.called w.store.backend
    signals := w.signals + 1
    stays := w.stays + 1 }

namespace Store

variable {store : Store}

/-- `get` and `contains` of `key` do not fail. -/
structure Responds (store : Store) (key : Key) : Prop where
  get : store.Answers key
  contains : ∃ found, (exec (Store.contains key) store).1 = .ok found

theorem exec_contains_snd (store : Store) (key : Key) :
    (exec (Store.contains key) store).2 = store.called store.backend := by
  rw [Store.contains, exec_bind_ok (exec_getThe _)]
  split
  · rw [exec_bind, exec_get]
    cases store.fault store.calls (.get key) with
    | some e => rfl
    | none => cases store.backend.get key <;> rfl
  · rw [exec_bind, exec_pass]
    cases store.fault store.calls (.contains key) with
    | some e => rfl
    | none => simp only [exec_bind, exec_getThe, exec_reply]

/-- `Op.holds` is `false` where there is no record, for one call. -/
theorem Responds.exec_holds (h : store.Responds key) (hr : store.contents key = none) :
    exec (holds key) store = (.ok false, store.called store.backend) := by
  obtain ⟨found, hfound⟩ := h.contains
  obtain ⟨-, -, hanswer⟩ := contains_contents (rfl : exec (Store.contains key) store = _)
  obtain rfl : found = false := by
    rw [hanswer found hfound, hr]
    rfl
  rw [holds, exec_lifted, hfound, exec_contains_snd]
  rfl

end Store

namespace Op

/-- `Op.announce` of a `key` without record answers `.notFound key` and unlinks its placeholder. -/
theorem announce_of_absent (hslot : w.cache.slot? key = none)
    (hu : w.cache.usage.find? key = none) (hr : w.store.contents key = none)
    (hresponds : w.store.Responds key) :
    exec (announce key) w = (.error (.notFound key), w.consulted) := by
  have hunlink : (w.cache.link key (placeholder w)).unlink key = w.cache :=
    Cache.unlink_link hslot hu rfl
  rw [announce, exec_bind_ok (exec_linkPlaceholder _ _), exec_bind_ok (exec_attempt _ _),
    exec_onStore]
  dsimp only
  rw [hresponds.exec_holds hr]
  dsimp only
  rw [abandon, exec_bind_ok (exec_unlink _ _), exec_throw]
  dsimp only
  rw [hunlink]
  rfl

/-- `Op.get` of a `key` that has neither slot nor record answers `.notFound key` before
`Op.reserve`. -/
theorem get_of_absent (hpatience : s'.patience ≠ 0) (hslot : w.cache.slot? key = none)
    (hu : w.cache.usage.find? key = none) (hr : w.store.contents key = none)
    (hresponds : w.store.Responds key) :
    exec (get s' key) w = (.error (.notFound key), w.consulted) := by
  rw [get_of_none hpatience hslot]
  exact exec_bind_error (exec_bind_error (announce_of_absent hslot hu hr hresponds))

/-- `Op.remove` of such a key answers `.ok ()`. -/
theorem remove_of_absent (hpatience : s'.patience ≠ 0) (hslot : w.cache.slot? key = none)
    (hu : w.cache.usage.find? key = none) (hr : w.store.contents key = none)
    (hresponds : w.store.Responds key) : exec (remove s' key) w = (.ok (), w.consulted) := by
  obtain ⟨answer, hexec, ⟨rfl, -⟩ | ⟨-, -, hno⟩⟩ := remove_of_none hpatience hslot hu hr
  · exact hexec
  · exact absurd hresponds.get hno

end Op

/-- In every reachable state `t'`, `Op.get` of a `key` with neither slot nor record answers
`.notFound key`, `Op.remove` answers `.ok ()`, and both leave `t'.world.consulted`. The surroundings
`s'` of the call are arbitrary: neither `settings.maxSize` nor `wait` nor any callback has a part in
it. -/
theorem Run.absence (hs : s.Discreet) (ht : t.Fresh s) (h : Run s t events t')
    (hgone : t'.Gone key) (hresponds : t'.world.store.Responds key)
    (s' : Surroundings σ ι' ω) (hpatience : s'.patience ≠ 0) :
    exec (Op.get s' key) t'.world = (.error (.notFound key), t'.world.consulted) ∧
      exec (Op.remove s' key) t'.world = (.ok (), t'.world.consulted) := by
  obtain ⟨hlinked, hr⟩ := hgone
  have hslot := Traffic.slot?_of_not_linked hlinked
  obtain ⟨hu, -⟩ := (h.sound hs ht).at_none hslot
  exact ⟨Op.get_of_absent hpatience hslot hu hr hresponds,
    Op.remove_of_absent hpatience hslot hu hr hresponds⟩

/-- `maxSize := 1` and `blockOnFull := true`: `Op.reserve` would wait. -/
def Surroundings.cramped : Surroundings Bool Bool Journal :=
  .recording { maxSize := 1, blockOnFull := true } .flag (fun _ _ => false) .ofNat

/-- With its one unit checked out, a full cache still answers `.notFound` at once. -/
theorem Run.absence_of_full :
    ∃ events t', Run .cramped (.opened .cramped (.empty fun _ _ => none) ⟨0⟩ {}) events t' ∧
      t'.Out (.ofNat 0) ∧ t'.world.cache.occupied = Surroundings.cramped.settings.maxSize ∧
      t'.Gone (.ofNat 7) ∧ t'.world.store.Responds (.ofNat 7) ∧ Surroundings.cramped.patience ≠ 0 ∧
      exec (Op.get .cramped (.ofNat 7)) t'.world =
        (.error (.notFound (.ofNat 7)), t'.world.consulted) ∧
      exec (Op.remove .cramped (.ofNat 7)) t'.world = (.ok (), t'.world.consulted) := by
  have h₁ := (Run.nil (s := .cramped)
    (t := .opened .cramped (.empty fun _ _ => none) ⟨0⟩ {})).thenCreate true (by decide)
      (fun hk => hk rfl)
  have h₂ := h₁.thenGet (.ofNat 0) rfl
  refine ⟨_, _, h₂, ⟨_, rfl, rfl⟩, rfl, ⟨nofun, rfl⟩, ⟨⟨_, rfl⟩, ⟨_, rfl⟩⟩, by decide,
    Run.absence Surroundings.recording_discreet (Traffic.opened_fresh _ _ _ _) h₂ ?_ ?_ _ (by decide)⟩
  · exact ⟨nofun, rfl⟩
  · exact ⟨⟨_, rfl⟩, ⟨_, rfl⟩⟩

end SessionCache
