import SessionCache.Proofs.Traffic.Recording
import SessionCache.Proofs.Traffic.Waiting

/-!
# No operation gets stuck

Operations ask for the next stage of a session, hand its state out and take it back, and look again
at a slot that they find in the middle of something. In a cache in use none of this goes wrong: the
stage that an operation finds is one from which it can go on, the state is there, and no operation
looks at a slot twice.

* `CacheError.Legal`: a failure that does not come from a move that a session cannot make.
* `Op.tryGet`, `Op.tryRemove`: one turn of the loops of `Op.get` and `Op.remove`, with a check that
  nobody gave the key a slot since it was looked up. `Op.exec_getLooking`, `Op.exec_removeLooking`:
  the loops are made of these turns.
* `Traffic.Unstuck`: what no operation that starts has to fear.
* `Run.legality`: every answer of a run is legal, and it leaves a cache that is not stuck.
-/

namespace SessionCache

variable {σ ι ω α : Type} {s : Surroundings σ ι ω} {d : Desk σ ι} {w w' : World σ ω} {key : Key}
  {slot : Slot σ} {state : σ} {e : CacheError}

/-! ## Failures -/

/-- `e` is no `.illegalTransition`, nor is its cause. -/
def CacheError.Legal : CacheError → Prop
  | .illegalTransition _ _ => False
  | .evictionFailed _ cause => cause.Legal
  | _ => True

/-- `e` is `Legal` and not `.stalled`. -/
def CacheError.Regular (e : CacheError) : Prop := e.Legal ∧ e ≠ .stalled

/-- A failure of `r` is `Legal`. -/
def EndsLegally (r : Except CacheError α) : Prop := ∀ e, r = .error e → e.Legal

/-- A failure of `r` is `Regular`. -/
def EndsRegularly (r : Except CacheError α) : Prop := ∀ e, r = .error e → e.Regular

theorem EndsRegularly.legally {r : Except CacheError α} (h : EndsRegularly r) : EndsLegally r :=
  fun e he => (h e he).1

theorem EndsLegally.map {β : Type} {r : Except CacheError α} (h : EndsLegally r) (f : α → β) :
    EndsLegally (r.map f) := by
  rintro e he
  cases r with
  | ok => cases he
  | error e' => cases he; exact h e rfl

theorem EndsLegally.of_map {β : Type} {r : Except CacheError α} {f : α → β}
    (h : EndsLegally (r.map f)) : EndsLegally r := by
  rintro e rfl
  exact h e rfl

theorem endsLegally_ok (a : α) : EndsLegally (.ok a) := nofun

theorem endsRegularly_ok (a : α) : EndsRegularly (.ok a) := nofun

theorem endsRegularly_error (h : e.Regular) : EndsRegularly (.error e : Except CacheError α) := by
  rintro _ ⟨⟩
  exact h

theorem EndsRegularly.of_store {r : Except CacheError α}
    (h : ∀ e, r = .error e → ∃ e', e = .store e') : EndsRegularly r := by
  intro e he
  obtain ⟨e', rfl⟩ := h e he
  exact ⟨trivial, nofun⟩

namespace Op

/-! ## How operations fail -/

theorem exec_fire_fails {phase : Phase} {state : Option σ} {r : Except CacheError (Option σ)}
    (h : exec (s.lifecycle.fire phase key state) w = (r, w')) : EndsRegularly r := by
  rw [Lifecycle.fire, exec_bind, exec_lift] at h
  rcases hc : (s.lifecycle.runPhase phase key state).run w with ⟨⟨after, _ | message⟩, w₁⟩ <;>
    rw [hc] at h <;> cases h
  · exact endsRegularly_ok after
  · exact endsRegularly_error ⟨trivial, by simp⟩

theorem exec_putRecord_fails {codec : Codec σ} {now : Instant} {r : Except CacheError Unit}
    (h : exec (onStore (Store.passivate codec now key state)) w = (r, w')) : EndsRegularly r := by
  rw [exec_onStore] at h
  rcases hstore : exec (Store.passivate codec now key state) w.store with ⟨answer, store⟩
  rw [hstore] at h
  obtain rfl : answer = r := (Prod.mk.inj h).1
  obtain ⟨-, ⟨_, rfl, -⟩ | ⟨message, rfl, -⟩ | ⟨e, rfl, -⟩⟩ := Store.exec_passivate hstore
  · exact endsRegularly_ok _
  · exact endsRegularly_error ⟨trivial, nofun⟩
  · exact endsRegularly_error ⟨trivial, nofun⟩

theorem exec_takeBack_fails {failure : CacheError} (hfailure : failure.Regular)
    {r : Except CacheError Unit} (h : exec (takeBack s key state failure) w = (r, w')) :
    EndsRegularly r := by
  rw [takeBack, exec_bind_ok (exec_modifyCounters _ _)] at h
  obtain ⟨undone, w₁, hundo, h⟩ := exec_attempt_bind h
  cases undone with
  | error undoing =>
    obtain ⟨rfl, -⟩ := exec_then_throw (fun h => (exec_forceRemove h ({} : Desk σ ι)).1) h
    exact endsRegularly_error (exec_fire_fails hundo _ rfl)
  | ok after =>
    cases h
    exact endsRegularly_error hfailure

theorem exec_moveOut_fails {r : Except CacheError Unit}
    (h : exec (moveOut s key) w = (r, w')) : EndsRegularly r := by
  rw [moveOut, exec_bind_ok (exec_unlink _ _), exec_bind_ok (exec_modifyCounters _ _)] at h
  obtain ⟨gone, w₁, hpost, h⟩ := exec_attempt_bind h
  cases gone with
  | error failure =>
    obtain ⟨rfl, -⟩ := exec_then_throw (fun h => (exec_discardRecord h ({} : Desk σ ι)).1) h
    exact endsRegularly_error (exec_fire_fails hpost _ rfl)
  | ok _ =>
    cases h
    exact endsRegularly_ok _

/-- `Op.passivate` of a ready session ends regularly. -/
theorem exec_passivate_fails (hslot : w.cache.slot? key = some slot) (hr : slot.IsReady state)
    {r : Except CacheError Unit} (h : exec (passivate s key) w = (r, w')) : EndsRegularly r := by
  obtain ⟨fired, w₁, hpre, h⟩ := exec_passivate_ready hslot hr h
  cases fired with
  | error failure =>
    obtain ⟨rfl, -⟩ := exec_then_throw (fun h => (exec_forceRemove h ({} : Desk σ ι)).1) h
    exact endsRegularly_error (exec_fire_fails hpre _ rfl)
  | ok after =>
    obtain ⟨answer, w₂, hput, h⟩ := h
    cases answer with
    | error failure => exact exec_takeBack_fails (exec_putRecord_fails hput _ rfl) h
    | ok _ => exact exec_moveOut_fails h

theorem evictionError_legal (victim : Key) {cause : CacheError} (h : cause.Legal) :
    (evictionError victim cause).Legal := by
  cases cause <;> exact h

/-- `Op.look` ends legally. -/
theorem exec_look_fails (hx : Sound s (w.scene d)) {deadline : Deadline} {r : Except CacheError Look}
    (h : exec (look s deadline) w = (r, w')) : EndsLegally r := by
  obtain ⟨-, rfl, -⟩ | ⟨-, victim, answer, hv, hp, ⟨-, rfl⟩ | ⟨cause, rfl, rfl⟩⟩ |
    ⟨-, -, -, ⟨_, rfl, hgives⟩ | ⟨_, rfl⟩⟩ := exec_look_cases h
  · exact endsLegally_ok _
  · exact endsLegally_ok _
  · obtain ⟨slot, state, hslot, hr⟩ := ready_of_victim? hx hv
    rintro _ ⟨⟩
    exact evictionError_legal victim (exec_passivate_fails hslot hr hp cause rfl).1
  · rintro _ ⟨⟩
    cases hgives <;> trivial
  · exact endsLegally_ok _

theorem Removed.regular {failed : Bool} {r : Except CacheError Unit} (h : Removed key failed r) :
    EndsRegularly r := by
  cases failed with
  | false => obtain rfl : r = .ok () := h; exact endsRegularly_ok _
  | true =>
    obtain ⟨message, rfl⟩ := h
    exact endsRegularly_error ⟨trivial, nofun⟩

theorem Erased.regular {x y : Scene σ ι ω} {r : Except CacheError Unit} (h : Erased s key x r y) :
    EndsRegularly r := by
  cases h with
  | missed | spoiled => exact endsRegularly_ok _
  | removed _ _ hr => exact hr.regular
  | refused | failed => exact endsRegularly_error ⟨trivial, nofun⟩

theorem Dropped.legal {x y : Scene σ ι ω} {r : Except CacheError Unit} (h : Dropped s key x r y) :
    EndsLegally r := by
  cases h with
  | absent _ h => exact h.regular.legally
  | ready _ _ _ hr => exact hr.regular.legally
  | out => exact endsLegally_ok _
  | stalled => rintro _ ⟨⟩; trivial

theorem Fallen.legal {x : Scene σ ι ω} {ds : List (Deed σ)} (h : Fallen key x e ds) : e.Legal := by
  cases h <;> trivial

/-- `Op.finish` of a session that was checked out ends regularly. -/
theorem exec_finish_regular (hs : s.Discreet) {rest : Multiset (Key × σ)}
    (hh : d.handles = (key, state) ::ₘ rest) (hslot : w.cache.slot? key = some slot)
    (ho : slot.IsOut) {r : Except CacheError Unit} (h : exec (finish s key state) w = (r, w')) :
    EndsRegularly r := by
  obtain ⟨-, failed, hr, -⟩ | ⟨-, rfl, -⟩ | ⟨-, message, rfl, -⟩ :=
    exec_finish (d := d) hs hh hslot ho h
  · exact hr.regular
  · exact endsRegularly_ok _
  · exact endsRegularly_error ⟨trivial, nofun⟩

/-! ## One turn of a loop -/

/-- `Op.activate`, unless `key` has got a slot: the answer is whether it was done. -/
def tryActivate (s : Surroundings σ ι ω) (key : Key) : Op σ ω Bool := do
  if (← cache).isLinked key then return false
  activate s key
  return true

/-- `Op.removePassivated`, unless `key` has got a slot: the answer is whether it was done. -/
def tryRemovePassivated (s : Surroundings σ ι ω) (key : Key) : Op σ ω Bool := do
  if (← cache).isLinked key then return false
  removePassivated s key
  return true

/-- One round of the loop of `Op.get`; `none` asks for another one. -/
def tryGet (s : Surroundings σ ι ω) (key : Key) : Op σ ω (Option σ) := do
  modifyCache (·.promote key)
  match (← cache).slot? key with
  | none =>
    if ← tryActivate s key then return some (← checkOut s key)
    else return none
  | some slot =>
    if slot.held then throw .stalled
    else
      match slot.stage with
      | .ready => return some (← checkOut s key)
      | .inUse => throw (.inUse key)
      | .removed => throw (.notFound key)
      | .passivated | .new => return none

/-- One round of the loop of `Op.remove`; `false` asks for another one. -/
def tryRemove (s : Surroundings σ ι ω) (key : Key) : Op σ ω Bool := do
  match (← cache).slot? key with
  | none => tryRemovePassivated s key
  | some slot =>
    if slot.held then throw .stalled
    else
      match slot.stage with
      | .ready =>
        let _ ← step slot.stage .remove
        modifyCache (·.update key fun slot => { slot with payload := none, held := true })
        destroy s key slot.payload
        return true
      | .inUse =>
        removeOnFinish key
        return true
      | .removed => return true
      | .passivated | .new => return false

/-- Right after the look at the slot, `tryActivate` does activate. -/
theorem exec_tryActivate (hslot : w.cache.slot? key = none) :
    exec (tryActivate s key) w = exec (do activate s key; return true) w := by
  rw [tryActivate, exec_bind_ok (exec_cache _), Cache.isLinked, hslot]
  rfl

theorem exec_tryRemovePassivated (hslot : w.cache.slot? key = none) :
    exec (tryRemovePassivated s key) w = exec (do removePassivated s key; return true) w := by
  rw [tryRemovePassivated, exec_bind_ok (exec_cache _), Cache.isLinked, hslot]
  rfl

/-- The loop of `Op.get` is `tryGet`, again and again while it answers `none`. -/
theorem exec_getLooking (looks : Nat) :
    exec (getLooking s key (looks + 1)) w = exec (do
      match ← tryGet s key with
      | some state => pure state
      | none => getLooking s key looks) w := by
  rw [getLooking, tryGet, bind_assoc, exec_bind_ok (exec_modifyCache _ _),
    exec_bind_ok (exec_modifyCache _ _), bind_assoc, exec_bind_ok (exec_cache _),
    exec_bind_ok (exec_cache _)]
  dsimp only
  cases hslot : (w.cache.promote key).slot? key with
  | none =>
    dsimp only
    rw [bind_assoc, exec_bind (tryActivate s key), exec_tryActivate hslot, ← exec_bind]
    simp only [bind_assoc, pure_bind, if_true, bind_pure]
  | some slot =>
    dsimp only
    cases slot.held with
    | true => rfl
    | false =>
      cases slot.stage with
      | ready => 
        simp only [Bool.false_eq_true, if_false, bind_assoc, pure_bind, bind_pure]
      | _ => rfl

/-- The loop of `Op.remove` is `tryRemove`, again and again while it answers `false`. -/
theorem exec_removeLooking (looks : Nat) :
    exec (removeLooking s key (looks + 1)) w = exec (do
      if ← tryRemove s key then pure () else removeLooking s key looks) w := by
  rw [removeLooking, tryRemove, bind_assoc, exec_bind_ok (exec_cache _),
    exec_bind_ok (exec_cache _)]
  cases hslot : w.cache.slot? key with
  | none =>
    dsimp only
    rw [exec_bind (tryRemovePassivated s key), exec_tryRemovePassivated hslot, ← exec_bind]
    simp only [bind_assoc, pure_bind, if_true, bind_pure_unit]
  | some slot =>
    dsimp only
    cases slot.held with
    | true => rfl
    | false =>
      cases slot.stage with
      | ready =>
        simp only [Bool.false_eq_true, if_false, if_true, bind_assoc, pure_bind, bind_pure_unit]
      | _ => rfl

/-- A key without a `held` slot has no slot, or one that is `.ready` with its state, or one that is
`.inUse`. -/
theorem slot_cases (hx : Sound s (w.scene d))
    (hheld : ∀ slot, w.cache.slot? key = some slot → slot.held = false) :
    w.cache.slot? key = none ∨ ∃ slot, w.cache.slot? key = some slot ∧
      ((∃ state, slot.IsReady state) ∨ slot.IsOut) := by
  cases hslot : w.cache.slot? key with
  | none => exact .inl rfl
  | some slot =>
    obtain hr | ho | hp := hx.kinds hslot
    · exact .inr ⟨slot, rfl, .inl hr⟩
    · exact .inr ⟨slot, rfl, .inr ho⟩
    · exact nomatch (hheld slot hslot).symm.trans hp.held

/-- Without a `held` slot for `key`, `tryGet` needs no second round. -/
theorem exec_tryGet (hx : Sound s (w.scene d))
    (hheld : ∀ slot, w.cache.slot? key = some slot → slot.held = false)
    {r : Except CacheError (Option σ)} (h : exec (tryGet s key) w = (r, w')) : r ≠ .ok none := by
  -- A state that was checked out is an answer, in whatever way it was.
  have hdone : ∀ {v w'}, exec (do return some (← checkOut s key)) v = (.ok none, w') → False := by
    intro v w' h
    obtain ⟨answer, -, hanswer⟩ := exec_bind_pure h
    cases answer <;> cases hanswer
  rintro rfl
  rw [tryGet, exec_bind_ok (exec_modifyCache _ _), exec_bind_ok (exec_cache _)] at h
  have hslot := Cache.slot?_promote w.cache key key
  obtain hnone | ⟨slot, hsome, ⟨state, hr⟩ | ho⟩ := slot_cases hx hheld
  · rw [hnone] at hslot
    rw [hslot] at h
    dsimp only at h
    rw [exec_bind, exec_tryActivate hslot, ← exec_bind] at h
    simp only [bind_assoc, pure_bind, if_true] at h
    obtain ⟨_, w₁, -, h⟩ | ⟨_, -, he⟩ := exec_bind_cases h
    · exact hdone h
    · cases he
  · rw [hslot, hsome] at h
    dsimp only at h
    rw [hr.held, hr.stage] at h
    exact hdone h
  · rw [hslot, hsome] at h
    dsimp only at h
    rw [ho.held, ho.stage] at h
    cases h

/-- Without a `held` slot for `key`, `tryRemove` needs no second round and ends regularly. -/
theorem exec_tryRemove (hs : s.Discreet) (hx : Sound s (w.scene d))
    (hheld : ∀ slot, w.cache.slot? key = some slot → slot.held = false) {r : Except CacheError Bool}
    (h : exec (tryRemove s key) w = (r, w')) : r ≠ .ok false ∧ EndsRegularly r := by
  -- An operation that ends regularly, and then nothing more.
  have hdone : ∀ {op : Op σ ω Unit} {v : World σ ω},
      (∀ {r v'}, exec op v = (r, v') → EndsRegularly r) →
      exec (do op; return true) v = (r, w') → r ≠ .ok false ∧ EndsRegularly r := by
    intro op v hop h
    obtain ⟨answer, hanswer, rfl⟩ := exec_bind_pure h
    have hregular := hop hanswer
    cases answer with
    | ok => exact ⟨nofun, endsRegularly_ok _⟩
    | error e => exact ⟨nofun, endsRegularly_error (hregular e rfl)⟩
  rw [tryRemove, exec_bind_ok (exec_cache _)] at h
  obtain hnone | ⟨slot, hsome, ⟨state, hr⟩ | ho⟩ := slot_cases hx hheld
  · rw [hnone] at h
    dsimp only at h
    rw [exec_tryRemovePassivated hnone] at h
    exact hdone (fun h => (exec_removePassivated hs hnone (hx.at_none hnone).1 h d).regular) h
  · rw [hsome] at h
    dsimp only at h
    rw [hr.held, if_neg Bool.false_ne_true, hr.stage] at h
    dsimp only at h
    rw [exec_bind_ok (exec_step rfl w), exec_bind_ok (exec_modifyCache _ _)] at h
    refine hdone (fun h => ?_) h
    obtain ⟨failed, hremoved, -⟩ := exec_destroy hs h d
    exact hremoved.regular
  · rw [hsome] at h
    dsimp only at h
    rw [ho.held, if_neg Bool.false_ne_true, ho.stage] at h
    cases h
    exact ⟨nofun, endsRegularly_ok _⟩

end Op

/-! ## Runs -/

variable {t t' : Traffic σ ι ω} {event : Traffic.Event σ ι} {events : List (Traffic.Event σ ι)}

open Op

theorem Request.legal (hs : s.Discreet) (hx : Sound s t.scene) {request : Request σ ι}
    (hq : request.Plain t) {answer : Except CacheError (Response σ)}
    (h : exec (request.perform s) t.world = (answer, w)) : EndsLegally answer := by
  cases request with
  | create | get | finish => exact hq.elim
  | removeOnFinish key =>
    obtain ⟨state, hstate⟩ := hq
    obtain ⟨slot, hslot, ho⟩ := hx.out_of_mem hstate
    obtain ⟨r, hw, rfl⟩ := exec_bind_pure h
    obtain ⟨rfl, -⟩ := exec_removeOnFinish (s := s) (d := t.toDesk) hslot ho hw
    exact endsLegally_ok _
  | remove key =>
    obtain ⟨r, hw, rfl⟩ := exec_bind_pure h
    exact (exec_remove (d := t.toDesk) hs hx hw).legal.map _
  | sweep =>
    obtain ⟨r, hw, rfl⟩ := exec_bind_pure h
    obtain ⟨⟨report, rfl⟩, -⟩ := exec_sweep_cases (d := t.toDesk) hs hx hw
    exact endsLegally_ok _
  | passivateAll =>
    obtain ⟨r, hw, rfl⟩ := exec_bind_pure h
    obtain ⟨⟨report, rfl⟩, -⟩ := exec_passivateAll (d := t.toDesk) hs hx hw
    exact endsLegally_ok _
  | expirePassivated =>
    obtain ⟨r, hw, rfl⟩ := exec_bind_pure h
    exact (EndsRegularly.of_store (exec_expirePassivated (d := t.toDesk) hw).2).legally.map _
  | peek key =>
    obtain ⟨r, hw, rfl⟩ := exec_bind_pure h
    refine EndsLegally.map ?_ _
    obtain ⟨-, ⟨slot, -, ⟨-, rfl⟩ | ⟨-, rfl⟩⟩ | ⟨-, ⟨_, rfl, -⟩ | ⟨rfl, -⟩ | ⟨e, rfl⟩⟩⟩ :=
      exec_peek hw t.toDesk
    all_goals first | exact endsLegally_ok _ | rintro _ ⟨⟩; trivial
  | contains key =>
    obtain ⟨r, hw, rfl⟩ := exec_bind_pure h
    refine EndsLegally.map ?_ _
    obtain ⟨-, rfl | ⟨-, e, rfl⟩⟩ := exec_contains hw t.toDesk
    · exact endsLegally_ok _
    · rintro _ ⟨⟩; trivial

/-- The answer of every `Step` ends legally. -/
theorem Step.legal (hs : s.Discreet) (hx : Sound s t.scene) {request : Request σ ι}
    {answer : Except CacheError (Response σ)} (h : Step s t (.answered request answer) t') :
    EndsLegally answer := by
  cases h with
  | serve hq hw => exact Request.legal hs hx hq hw
  | @finish key state rest answer w h hw =>
    obtain ⟨slot, hslot, ho, -⟩ := hx.at_handle h
    exact (exec_finish_regular (d := t.toDesk) hs h hslot ho hw).legally.map _
  | @get key answer w h hw =>
    obtain ⟨slot, hslot⟩ := Option.isSome_iff_exists.mp h
    refine EndsLegally.map ?_ _
    cases exec_get (d := t.toDesk) hs hx hslot hw with
    | ok => exact endsLegally_ok _
    | lost | inUse | stalled => rintro _ ⟨⟩; trivial
  | miss h hw =>
    obtain ⟨-, ⟨rfl, -⟩ | ⟨e, rfl⟩⟩ := Step.miss_scene hx h hw
    · rintro _ ⟨⟩; trivial
    · rintro _ ⟨⟩; trivial
  | fail h hd hw hw' =>
    rintro _ ⟨⟩
    exact exec_look_fails (d := t.toDesk) hx hw _ rfl
  | giveUp => rintro _ ⟨⟩; trivial
  | introduce h hk hw =>
    refine EndsLegally.map ?_ _
    obtain ⟨_, _, _, rfl, -⟩ | ⟨_, _, rfl, -⟩ := exec_introduce (d := t.toDesk) hs h hk hw
    · exact endsLegally_ok _
    · rintro _ ⟨⟩; trivial
  | @settle key rest answer w h hw =>
    refine EndsLegally.map ?_ _
    obtain ⟨slot, hslot, hp, -⟩ := hx.at_task h (decide_eq_true rfl)
    obtain ⟨state, rfl, -⟩ | ⟨failure, ds, rfl, -, hfallen, -⟩ :=
      exec_settle_checkOut (d := t.toDesk) hs h hslot hp hw
    · exact endsLegally_ok _
    · rintro _ ⟨⟩; exact hfallen.legal

theorem Run.legal (hs : s.Discreet) (hx : Sound s t.scene) (h : Run s t events t')
    {request : Request σ ι} {answer : Except CacheError (Response σ)}
    (hanswer : .answered request answer ∈ events) : EndsLegally answer := by
  suffices hall : Sound s t'.scene ∧
      ∀ request answer, .answered request answer ∈ events → EndsLegally answer from
    hall.2 request answer hanswer
  clear hanswer
  induction h with
  | nil => exact ⟨hx, nofun⟩
  | snoc _ hstep ih =>
    obtain ⟨hx', hall⟩ := ih
    refine ⟨hstep.sound hs hx', fun request answer hmem => ?_⟩
    obtain hmem | hmem := List.mem_append.mp hmem
    · exact hall request answer hmem
    · obtain rfl := List.mem_singleton.mp hmem
      exact hstep.legal hs hx'

/-- No task in `t` is bringing `key` into memory. -/
def Traffic.Free (t : Traffic σ ι ω) (key : Key) : Prop := ∀ task ∈ t.tasks, task.awaits key = false

theorem Traffic.Free.not_held (h : t.Free key) (hx : Sound s t.scene) {slot : Slot σ}
    (hslot : t.world.cache.slot? key = some slot) : slot.held = false := by
  cases hheld : slot.held with
  | false => rfl
  | true =>
    obtain ⟨-, hcomers⟩ := hx.placeholder_of_held hslot hheld
    have hnone : t.scene.comers key = 0 :=
      Multiset.countP_eq_zero.mpr fun task htask => by rw [h task htask]; nofun
    exact nomatch hcomers.symm.trans hnone

/-- Every request that starts in `t`, for keys that are `Free`, finds the slots in a state from
which its first round ends. -/
structure Traffic.Unstuck (s : Surroundings σ ι ω) (t : Traffic σ ι ω) : Prop where
  /-- A slot that is not `held` is `.ready` with a payload, or `.inUse` without one. -/
  slots : ∀ key slot, t.world.cache.slot? key = some slot → slot.held = false →
    (slot.stage = .ready ∧ slot.payload ≠ none) ∨ (slot.stage = .inUse ∧ slot.payload = none)
  /-- What is checked out can be given back: `Op.finish` ends regularly. -/
  handles : ∀ key state, (key, state) ∈ t.handles →
    (∃ slot, t.world.cache.slot? key = some slot ∧ slot.held = false ∧ slot.stage = .inUse) ∧
      EndsRegularly (exec (finish s key state) t.world).1
  /-- A `.ready` session can be passivated, also after others were. -/
  passivations : ∀ w, Parade s t.world w → ∀ key slot, w.cache.slot? key = some slot →
    slot.held = false → slot.stage = .ready → EndsRegularly (exec (passivate s key) w).1
  /-- The first round of `Op.get` ends it. -/
  get : ∀ key, t.Free key →
    (exec (tryGet s key) t.world).1 ≠ .ok none ∧
      ∀ looks, exec (getLooking s key (looks + 1)) t.world = exec (getLooking s key 1) t.world
  /-- So does that of `Op.remove`. -/
  remove : ∀ key, t.Free key →
    (exec (tryRemove s key) t.world).1 ≠ .ok false ∧
      EndsRegularly (exec (tryRemove s key) t.world).1 ∧
      ∀ looks, exec (removeLooking s key (looks + 1)) t.world = exec (removeLooking s key 1) t.world

theorem Sound.unstuck (hs : s.Discreet) (hx : Sound s t.scene) : t.Unstuck s where
  slots key slot hslot hheld := by
    obtain ⟨state, hr⟩ | ho | hp := hx.kinds hslot
    · exact .inl ⟨hr.stage, hr.payload.trans_ne (Option.some_ne_none _)⟩
    · exact .inr ⟨ho.stage, ho.payload⟩
    · exact nomatch hheld.symm.trans hp.held
  handles key state hmem := by
    obtain ⟨rest, hrest⟩ := Multiset.exists_cons_of_mem hmem
    obtain ⟨slot, hslot, ho, -⟩ := hx.at_handle hrest
    exact ⟨⟨slot, hslot, ho.held, ho.stage⟩,
      exec_finish_regular (d := t.toDesk) hs hrest hslot ho (Prod.eta _).symm⟩
  passivations w hparade key slot hslot hheld hstage := by
    have hsound : Sound s (w.scene t.toDesk) :=
      hparade.keeps (P := fun w => Sound s (w.scene t.toDesk))
      (fun hslot hr hp hx => by
        obtain ⟨ds, hparted⟩ := exec_passivate (d := t.toDesk) hs hslot hr hp
        exact hparted.path.sound hx) hx
    obtain ⟨state, hr⟩ := hsound.ready_of_stage hslot hstage
    exact exec_passivate_fails hslot hr (Prod.eta _).symm
  get key hfree := by
    have hturn : (exec (tryGet s key) t.world).1 ≠ .ok none :=
      exec_tryGet (d := t.toDesk) hx (fun _ hslot => hfree.not_held hx hslot) (Prod.eta _).symm
    refine ⟨hturn, fun looks => ?_⟩
    rw [exec_getLooking, exec_getLooking, exec_bind, exec_bind]
    rcases hr : exec (tryGet s key) t.world with ⟨e | _ | state, w⟩
    · rfl
    · exact absurd (congrArg Prod.fst hr) hturn
    · rfl
  remove key hfree := by
    obtain ⟨hturn, hregular⟩ := exec_tryRemove (d := t.toDesk) hs hx
      (fun _ hslot => hfree.not_held hx hslot)
      (show exec (tryRemove s key) t.world = _ from (Prod.eta _).symm)
    refine ⟨hturn, hregular, fun looks => ?_⟩
    rw [exec_removeLooking, exec_removeLooking, exec_bind, exec_bind]
    rcases hr : exec (tryRemove s key) t.world with ⟨e | _ | _, w⟩
    · rfl
    · exact absurd (congrArg Prod.fst hr) hturn
    · rfl

/-- In every run, with any `fault` of the store and any callbacks, no answer is or causes an
`.illegalTransition`; the state `t'` that it leads to is `Unstuck`; and `Op.get`, `Op.remove` and
the other requests end legally from `t'` with any `Company` during their waits. -/
theorem Run.legality (hs : s.Discreet) (ht : t.Fresh s) (h : Run s t events t') :
    (∀ request answer, .answered request answer ∈ events → EndsLegally answer) ∧ t'.Unstuck s ∧
      ∀ Fits, s.Company Fits → Fits t' →
        (∀ key, EndsLegally (exec (Op.get s key) t'.world).1) ∧
        ((∀ t, Fits t → (s.freshKey.run t.world).1 ∉ t.known) →
          ∀ args, EndsLegally (exec (Op.create s args) t'.world).1) := by
  have hx := h.sound hs ht
  refine ⟨fun _ _ => h.legal hs ht.sound, hx.unstuck hs, fun Fits hcompany hfits => ⟨?_, ?_⟩⟩
  · intro key
    by_cases hpatience : s.patience = 0
    · rw [Op.get, hpatience]
      rintro _ ⟨⟩
      trivial
    · obtain ⟨later, t'', -, hrun⟩ :=
        Run.get hcompany hpatience hfits
          (show exec (Op.get s key) t'.world = _ from (Prod.eta _).symm)
      exact (hrun.legal hs hx (List.mem_append_right _ List.mem_cons_self)).of_map
  · intro hfresh args
    obtain ⟨later, t'', -, hrun⟩ :=
      Run.create hcompany hfresh hfits (show exec (Op.create s args) t'.world = _ from
        (Prod.eta _).symm)
    exact (hrun.legal hs hx (List.mem_append_right _ List.mem_cons_self)).of_map

/-- Nobody else is served during a wait of `recording`. -/
theorem Surroundings.recording_company {settings : Settings} {codec : Codec σ}
    {fails : Phase → Key → Bool} {keyOf : Nat → Key} :
    (recording settings codec fails keyOf).Company fun _ => True where
  wait t _ _ := ⟨[], t, .nil, rfl, trivial⟩
  look _ _ _ _ _ _ := trivial
  announce _ _ _ _ _ _ := trivial

/-- The theorem applies to a cache whose one session is checked out. -/
theorem Run.legality_of_checkedOut :
    ∃ events t', Run (.small fun _ _ => false)
        (.small (fun _ _ => false) fun _ _ => none) events t' ∧
      t'.handles = {(.ofNat 0, true)} ∧ t'.Unstuck (.small fun _ _ => false) ∧
      EndsLegally (exec (Op.get (.small fun _ _ => false) (.ofNat 1)) t'.world).1 := by
  have h₁ := (Run.nil (s := .small fun _ _ => false)
    (t := .small (fun _ _ => false) fun _ _ => none)).thenCreate true (by decide) (fun hk => hk rfl)
  have h₂ := h₁.thenGet (.ofNat 0) rfl
  obtain ⟨-, hunstuck, hwhole⟩ :=
    Run.legality Surroundings.recording_discreet (Traffic.opened_fresh _ _ _ _) h₂
  obtain ⟨hget, -⟩ := hwhole _ Surroundings.recording_company trivial
  exact ⟨_, _, h₂, rfl, hunstuck, hget _⟩

end SessionCache
