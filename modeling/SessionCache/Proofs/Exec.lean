import SessionCache.Cache.World

/-!
# Computations that may fail, step by step

Operations and the calls of a store are computations on a state that may fail. `exec` runs one, and
the `exec_*` lemmas say what each piece of such a computation does to the state, so that an
operation is followed piece by piece.
-/

namespace SessionCache

section Exec

variable {ε ε' S α β : Type}

/-- Runs `m` from `x`: the answer, and the state that it leaves. -/
def exec (m : ExceptT ε (StateM S) α) (x : S) : Except ε α × S := m.run.run x

@[simp] theorem exec_pure (a : α) (x : S) :
    exec (pure a : ExceptT ε (StateM S) α) x = (.ok a, x) := rfl

@[simp] theorem exec_throw (e : ε) (x : S) :
    exec (throw e : ExceptT ε (StateM S) α) x = (.error e, x) := rfl

theorem exec_bind (m : ExceptT ε (StateM S) α) (f : α → ExceptT ε (StateM S) β) (x : S) :
    exec (m >>= f) x = match exec m x with
      | (.ok a, y) => exec (f a) y
      | (.error e, y) => (.error e, y) := by
  change exec (ExceptT.bind m f) x = _
  cases h : exec m x with
  | mk r y =>
    have h' : (m : StateM S (Except ε α)) x = (r, y) := h
    simp only [exec, ExceptT.bind, ExceptT.mk, ExceptT.run, StateT.run, bind, StateT.bind, h']
    cases r <;> rfl

/-- `m >>= f` goes through `m` and then `f`, or ends with an error of `m`. -/
theorem exec_bind_cases {m : ExceptT ε (StateM S) α} {f : α → ExceptT ε (StateM S) β} {x y : S}
    {r : Except ε β} (h : exec (m >>= f) x = (r, y)) :
    (∃ a z, exec m x = (.ok a, z) ∧ exec (f a) z = (r, y)) ∨
      ∃ e, exec m x = (.error e, y) ∧ r = .error e := by
  rw [exec_bind] at h
  rcases hm : exec m x with ⟨e | a, z⟩ <;> rw [hm] at h
  · cases h; exact .inr ⟨e, rfl, rfl⟩
  · exact .inl ⟨a, z, rfl, h⟩

/-- `m` followed by a function of its answer ends where `m` does. -/
theorem exec_bind_pure {m : ExceptT ε (StateM S) α} {f : α → β} {x y : S} {r : Except ε β}
    (h : exec (m >>= fun a => pure (f a)) x = (r, y)) :
    ∃ answer, exec m x = (answer, y) ∧ r = answer.map f := by
  obtain ⟨a, z, hm, h⟩ | ⟨e, hm, rfl⟩ := exec_bind_cases h
  · cases h
    exact ⟨.ok a, hm, rfl⟩
  · exact ⟨.error e, hm, rfl⟩

theorem exec_bind_ok {m : ExceptT ε (StateM S) α} {f : α → ExceptT ε (StateM S) β} {x y : S}
    {a : α} (h : exec m x = (.ok a, y)) : exec (m >>= f) x = exec (f a) y := by
  rw [exec_bind, h]

theorem exec_bind_error {m : ExceptT ε (StateM S) α} {f : α → ExceptT ε (StateM S) β} {x y : S}
    {e : ε} (h : exec m x = (.error e, y)) : exec (m >>= f) x = (.error e, y) := by
  rw [exec_bind, h]

@[simp] theorem exec_getThe (x : S) :
    exec (getThe S : ExceptT ε (StateM S) S) x = (.ok x, x) := rfl

@[simp] theorem exec_set (x y : S) :
    exec (set y : ExceptT ε (StateM S) PUnit) x = (.ok ⟨⟩, y) := rfl

@[simp] theorem exec_modifyThe (f : S → S) (x : S) :
    exec (modifyThe S f : ExceptT ε (StateM S) PUnit) x = (.ok ⟨⟩, f x) := rfl

@[simp] theorem exec_lift (m : StateM S α) (x : S) :
    exec (ExceptT.lift m : ExceptT ε (StateM S) α) x = (.ok (m.run x).1, (m.run x).2) := rfl

end Exec

namespace Op

variable {σ ω α : Type}

@[simp] theorem exec_attempt (op : Op σ ω α) (w : World σ ω) :
    exec (attempt op) w = (.ok (exec op w).1, (exec op w).2) := rfl

/-- `attempt op` never fails: what follows it gets the answer of `op`, and the world that `op`
left. -/
theorem exec_attempt_bind {β : Type} {op : Op σ ω α} {f : Except CacheError α → Op σ ω β}
    {w w' : World σ ω} {r : Except CacheError β} (h : exec (attempt op >>= f) w = (r, w')) :
    ∃ answer w₁, exec op w = (answer, w₁) ∧ exec (f answer) w₁ = (r, w') := by
  rw [exec_bind_ok (exec_attempt op w)] at h
  exact ⟨_, _, rfl, h⟩

@[simp] theorem exec_cache (w : World σ ω) : exec (cache : Op σ ω (Cache σ)) w = (.ok w.cache, w) := rfl

@[simp] theorem exec_now (w : World σ ω) : exec (now : Op σ ω Instant) w = (.ok w.now, w) := rfl

@[simp] theorem exec_modifyCache (f : Cache σ → Cache σ) (w : World σ ω) :
    exec (modifyCache f : Op σ ω Unit) w = (.ok (), { w with cache := f w.cache }) := rfl

@[simp] theorem exec_modifyCounters (f : Counters → Counters) (w : World σ ω) :
    exec (modifyCounters f : Op σ ω Unit) w =
      (.ok (), { w with cache := { w.cache with counters := f w.cache.counters } }) := rfl

@[simp] theorem exec_modifyUsage (f : Usage → Usage) (w : World σ ω) :
    exec (modifyUsage f : Op σ ω Unit) w =
      (.ok (), { w with cache := { w.cache with usage := f w.cache.usage } }) := rfl

@[simp] theorem exec_signal (w : World σ ω) :
    exec (signal : Op σ ω Unit) w = (.ok (), { w with signals := w.signals + 1 }) := rfl

@[simp] theorem exec_link (key : Key) (slot : Slot σ) (w : World σ ω) :
    exec (link key slot : Op σ ω Unit) w =
      (.ok (), { w with cache := w.cache.link key { slot with stay := w.stays },
                        stays := w.stays + 1 }) := rfl

@[simp] theorem exec_unlink (key : Key) (w : World σ ω) :
    exec (unlink key : Op σ ω Unit) w =
      (.ok (), { w with cache := w.cache.unlink key, signals := w.signals + 1 }) := rfl

@[simp] theorem exec_onStore (action : SessionStoreM α) (w : World σ ω) :
    exec (onStore action : Op σ ω α) w =
      ((exec action w.store).1, { w with store := (exec action w.store).2 }) := by
  unfold onStore
  rw [exec_bind, exec_getThe]
  dsimp only
  rcases hrun : action.run.run w.store with ⟨r, store⟩
  rw [show exec action w.store = (r, store) from hrun]
  cases r <;> rfl

theorem exec_step {stage next : Stage} {event : Event} (h : stage.next? event = some next)
    (w : World σ ω) : exec (step stage event : Op σ ω Stage) w = (.ok next, w) := by
  simp only [step, h, exec_pure]

end Op

end SessionCache
