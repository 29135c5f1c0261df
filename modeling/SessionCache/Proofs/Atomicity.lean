import SessionCache.Proofs.Failure

/-!
# Passivation and other callers

When a session has gone to the store, its last callbacks run, and other callers can go on meanwhile:
they can remove the session, look at it, or bring it back into memory. If one of the callbacks fails
then, the record is deleted, whoever wrote it, but nothing else is done about the session. So it is
gone, unless another caller has got it in the meantime: that one keeps it, and may have written the
record that is deleted.

* `Meanwhile`: what happens while callbacks run.
* `Scene.Rests`: a session that has not been in memory since its record was written.
* `Run.atomicity`: what is left of a session whose last callbacks failed.
* `Run.atomicity_broken`: a session that is checked out after it was lost.
-/

namespace SessionCache

variable {σ ι ω α : Type} {s : Surroundings σ ι ω} {x x' : Scene σ ι ω} {ds : List (Deed σ)}
  {t t' : Traffic σ ι ω} {event : Traffic.Event σ ι} {events : List (Traffic.Event σ ι)} {k key : Key}
  {w w' : World σ ω} {d : Desk σ ι} {slot : Slot σ} {state : σ} {bytes : ByteArray}

/-! ## Sessions that rest in the store -/

/-- `p` is a place of a key whose record, if there is one, is `bytes`, and that is not in memory. -/
inductive Place.Rests (bytes : ByteArray) : Place σ → Prop where
  | stored : Rests bytes (.stored bytes)
  | gone : Rests bytes .gone
  | coming : Rests bytes (.coming (some bytes))
  | bereft : Rests bytes (.coming none)

theorem Place.Rests.ofRecord {bytes? : Option ByteArray} (h : bytes? = none ∨ bytes? = some bytes) :
    (Place.ofRecord bytes? : Place σ).Rests bytes := by
  obtain rfl | rfl := h
  · exact .gone
  · exact .stored

/-- The place of `k` in `x` is at rest: no slot but perhaps a placeholder, and `bytes` or no
record. -/
def Scene.Rests (x : Scene σ ι ω) (k : Key) (bytes : ByteArray) : Prop := ∃ p, Lies x k p ∧ p.Rests bytes

/-- `e` is a callback of an activation of `k`. -/
def Deed.Activates (k : Key) (e : Deed σ) : Prop :=
  e = .fired ⟨.preActivate, k, false⟩ ∨ e = .fired ⟨.postActivate, k, false⟩

/-- `.postActivate` fired for `k`, and it is `.ready` or more was done to it since. -/
def Woken (k : Key) (p : Place σ) (ds : List (Deed σ)) : Prop :=
  .fired ⟨.postActivate, k, false⟩ ∈ ds ∧ ((∃ state, p = .ready state) ∨ ∃ e ∈ ds, ¬e.Activates k)

theorem Hop.rests {p p' : Place σ} (h : Hop s x k p ds p') (hp : p.Rests bytes) :
    p'.Rests bytes ∨ Woken k p' ds := by
  have hdrops : ∀ {bytes? bytes?' : Option ByteArray}, x.Drops k bytes? bytes?' →
      bytes? = none ∨ bytes? = some bytes → bytes?' = none ∨ bytes?' = some bytes := by
    intro bytes? bytes?' hd hb
    obtain rfl | ⟨rfl, -⟩ := hd
    · exact .inl rfl
    · exact hb
  cases hp with
  | gone =>
    cases h
    exact .inl .gone
  | stored =>
    cases h with
    | still | attendStored => exact .inl .stored
    | purge | erase | spoil => exact .inl .gone
    | announce => exact .inl .coming
    | loseParked hd => exact .inl (.ofRecord (hdrops hd (.inr rfl)))
  | coming =>
    cases h with
    | still | attendComing => exact .inl .coming
    | purgeComing => exact .inl .bereft
    | withdraw => exact .inl .stored
    | settle => exact .inr ⟨List.mem_cons_of_mem _ List.mem_cons_self, .inl ⟨_, rfl⟩⟩
    | loseComing hd => exact .inl (.ofRecord (hdrops hd (.inr rfl)))
  | bereft =>
    cases h with
    | still | attendComing | purgeComing => exact .inl .bereft
    | withdraw => exact .inl .gone
    | loseComing hd => exact .inl (.ofRecord (hdrops hd (.inl rfl)))

/-- What is `Woken` stays so over a `Hop`. -/
theorem Hop.woken {p p' : Place σ} {es : List (Deed σ)} (h : Hop s x k p ds p') (hp : Woken k p es) :
    Woken k p' (es ++ ds) := by
  obtain ⟨hmem, ⟨state, rfl⟩ | ⟨e, he, hne⟩⟩ := hp
  · have hnext : ∀ {q : Place σ} {e : Deed σ}, e ∈ ds → ¬e.Activates k → Woken k q (es ++ ds) :=
      fun he hne => ⟨List.mem_append_left _ hmem, .inr ⟨_, List.mem_append_right _ he, hne⟩⟩
    cases h with
    | still => exact ⟨List.mem_append_left _ hmem, .inl ⟨state, rfl⟩⟩
    | checkOut | park | stay | leave => exact hnext List.mem_cons_self (by simp [Deed.Activates])
    | lose =>
      exact hnext (List.mem_append_right _ (List.mem_cons_of_mem _ List.mem_cons_self))
        (by simp [Deed.Activates])
  · exact ⟨List.mem_append_left _ hmem, .inr ⟨e, List.mem_append_left _ he, hne⟩⟩

theorem Path.rests_or_woken (hx : Sound s x) (h : Path s x ds x') (hu : .tampered ∉ ds)
    (hr : x.Rests k bytes) :
    ∃ p, Lies x' k p ∧ (p.Rests bytes ∨ Woken k p (about k ds)) := by
  obtain ⟨p, hp, hrests⟩ := hr
  refine h.follow hx hu hp (P := fun q es => q.Rests bytes ∨ Woken k q es) (.inl hrests) ?_
  intro y q q' es es' _ _ hhop hq
  obtain hq | hq := hq
  · refine (hhop.rests hq).imp_right fun ⟨hmem, hrest⟩ => ⟨List.mem_append_right _ hmem, ?_⟩
    exact hrest.imp_right fun ⟨e, he, hne⟩ => ⟨e, List.mem_append_right _ he, hne⟩
  · exact .inr (hhop.woken hq)

theorem Path.rests (hx : Sound s x) (h : Path s x ds x') (hu : .tampered ∉ ds)
    (hr : x.Rests k bytes) (hnot : .fired ⟨.postActivate, k, false⟩ ∉ ds) : x'.Rests k bytes := by
  obtain ⟨p, hp, hrests | ⟨hmem, -⟩⟩ := h.rests_or_woken hx hu hr
  · exact ⟨p, hp, hrests⟩
  · exact absurd (List.mem_filter.mp hmem).1 hnot

theorem Path.rests_of_activated (hx : Sound s x) (h : Path s x ds x') (hr : x.Rests k bytes)
    (hall : ∀ e ∈ ds, e.Activates k) (hnone : x'.cache.slot? k = none) : x'.Rests k bytes := by
  have hu : .tampered ∉ ds := fun he => by
    obtain he | he := hall _ he <;> cases he
  obtain ⟨p, hp, hrests | ⟨-, ⟨state, rfl⟩ | ⟨e, he, hne⟩⟩⟩ := h.rests_or_woken hx hu hr
  · exact ⟨p, hp, hrests⟩
  · cases hp with
    | ready hslot => exact nomatch hnone.symm.trans hslot
  · exact absurd (hall e (List.mem_filter.mp he).1) hne

theorem Path.rests_of_ends (hx : Sound s x) (h : Path s x ds x') (hu : .tampered ∉ ds)
    (hgate : x.Lets k) (hr : x.Rests k bytes) (hd : ∃ e ∈ ds, e.Ends k) : x'.Rests k bytes := by
  obtain ⟨p, hp, -⟩ := hr
  exact ⟨.gone, h.of_ends hx hu hgate hp hd, .gone⟩

theorem Scene.Rests.not_ready (h : x.Rests k bytes) (hslot : x.cache.slot? key = some slot)
    (hr : slot.IsReady state) : key ≠ k := by
  rintro rfl
  obtain ⟨p, hp, hrests⟩ := h
  obtain ⟨rfl, -⟩ := hp.of_ready hslot hr
  cases hrests

/-- A resting `k` that no task awaits has no slot, and its record is `none` or `bytes`. -/
theorem Scene.Rests.settled (hx : Sound s x) (h : x.Rests k bytes)
    (hidle : ∀ task ∈ x.tasks, task.awaits k = false) :
    x.cache.slot? k = none ∧ (x.contents k = none ∨ x.contents k = some bytes) := by
  obtain ⟨p, hp, hrests⟩ := h
  have hawaited : ∀ {bytes? : Option ByteArray}, p ≠ .coming bytes? := fun hcoming => by
    obtain ⟨task, htask, ha⟩ := hp.awaited hx hcoming
    exact nomatch (hidle task htask).symm.trans ha
  cases hrests with
  | stored => cases hp with | stored hs hr => exact ⟨hs, .inr hr⟩
  | gone => cases hp with | gone hs hr => exact ⟨hs, .inl hr⟩
  | coming | bereft => exact absurd rfl hawaited

/-! ## Operations of other callers -/

namespace Op

theorem exec_passivate_rests (hs : s.Discreet) (hx : Sound s (w.scene d))
    (hslot : w.cache.slot? key = some slot) (hr : slot.IsReady state) {r : Except CacheError Unit}
    (h : exec (passivate s key) w = (r, w')) (hrests : (w.scene d).Rests k bytes) :
    (w'.scene d).Rests k bytes := by
  have hne : key ≠ k := hrests.not_ready hslot hr
  obtain ⟨ds, hparted⟩ := exec_passivate (d := d) hs hslot hr h
  refine hparted.path.rests hx (fun he => ?_) hrests fun he => ?_
  · obtain he | ⟨f, -, he⟩ := hparted.about_key _ he <;> cases he
  · obtain he | ⟨f, hf, he⟩ := hparted.about_key _ he <;> cases he
    exact hne hf.symm

theorem Parade.rests (hs : s.Discreet) (hx : Sound s (w.scene d)) (h : Parade s w w')
    (hrests : (w.scene d).Rests k bytes) : (w'.scene d).Rests k bytes := by
  obtain ⟨-, hrests'⟩ := h.keeps (P := fun w => Sound s (w.scene d) ∧ (w.scene d).Rests k bytes)
    (fun {_ _ _ _ _ _} hslot hr hp ⟨hx, hrests⟩ => by
      obtain ⟨ds, hparted⟩ := exec_passivate (d := d) hs hslot hr hp
      exact ⟨hparted.path.sound hx, exec_passivate_rests hs hx hslot hr hp hrests⟩) ⟨hx, hrests⟩
  exact hrests'

theorem exec_look_rests (hs : s.Discreet) (hx : Sound s (w.scene d)) {deadline : Deadline}
    {r : Except CacheError Look} (h : exec (look s deadline) w = (r, w')) (hr : r ≠ .ok .taken)
    (hrests : (w.scene d).Rests k bytes) : (w'.scene d).Rests k bytes := by
  obtain ⟨-, rfl, -⟩ | ⟨-, victim, answer, hvictim, hp, -⟩ | ⟨-, -, rfl, -⟩ := exec_look_cases h
  · exact absurd rfl hr
  · obtain ⟨slot, state, hslot, hready⟩ := ready_of_victim? hx hvictim
    exact exec_passivate_rests hs hx hslot hready hp hrests
  · exact hrests

theorem exec_remove_rests (hs : s.Discreet) (hx : Sound s (w.scene d)) {r : Except CacheError Unit}
    (h : exec (remove s key) w = (r, w')) (hrests : (w.scene d).Rests k bytes) :
    (w'.scene d).Rests k bytes := by
  have hdropped := exec_remove (d := d) hs hx h
  generalize w'.scene d = y at hdropped ⊢
  cases hdropped with
  | absent _ herased =>
    cases herased with
    | missed | failed => exact hrests
    | spoiled hpath | removed _ hpath | refused hpath =>
      exact hpath.rests hx (by simp) hrests (by simp)
  | ready _ _ hpath | out _ _ hpath => exact hpath.rests hx (by simp) hrests (by simp)
  | stalled => exact hrests

/-- An activation of `key` that failed leaves it at rest. -/
theorem Fallen.rests (hx : Sound s x) {failure : CacheError} (h : Fallen key x failure ds)
    (hpath : Path s x ds x') (hgate : x.Lets k) (hrests : x.Rests k bytes)
    (hnone : x'.cache.slot? key = none) : x'.Rests k bytes := by
  by_cases hk : key = k
  · obtain rfl := hk
    cases h with
    | lost fs => exact hpath.rests_of_ends hx (by simp) hgate hrests ⟨.lost key, by simp, rfl⟩
    | spoiled => exact hpath.rests_of_ends hx (by simp) hgate hrests ⟨.spoiled key, by simp, rfl⟩
    | missed => exact hpath.rests hx (by simp) hrests (by simp)
    | failed hf =>
      obtain rfl | rfl := hf <;>
      exact hpath.rests_of_activated hx hrests (by simp [Deed.Activates]) hnone
  · have hne : k ≠ key := fun h => hk h.symm
    cases h with
    | lost fs hf =>
      refine hpath.rests hx (by simp) hrests ?_
      simp only [List.mem_append, List.mem_map, List.mem_pair, Deed.fired.injEq, not_or]
      refine ⟨?_, by simp, by simp⟩
      rintro ⟨f, hmem, rfl⟩
      exact hne (hf _ hmem).1
    | spoiled | missed => exact hpath.rests hx (by simp) hrests (by simp)
    | failed hf =>
      obtain rfl | rfl := hf <;> exact hpath.rests hx (by simp) hrests (by simp [hne])

end Op

theorem Request.rests (hs : s.Discreet) (hx : Sound s t.scene) {request : Request σ ι}
    (hq : request.Plain t) {answer : Except CacheError (Response σ)}
    (h : exec (request.perform s) t.world = (answer, w)) (hrests : t.scene.Rests k bytes) :
    (w.scene t.toDesk).Rests k bytes := by
  cases request with
  | create | get | finish => exact hq.elim
  | removeOnFinish key =>
    obtain ⟨state, hstate⟩ := hq
    obtain ⟨slot, hslot, ho⟩ := hx.out_of_mem hstate
    obtain ⟨r, hw, -⟩ := exec_bind_pure h
    obtain ⟨-, hpath⟩ := Op.exec_removeOnFinish (s := s) (d := t.toDesk) hslot ho hw
    exact hpath.rests hx (by simp) hrests (by simp)
  | remove key =>
    obtain ⟨r, hw, -⟩ := exec_bind_pure h
    exact Op.exec_remove_rests hs hx hw hrests
  | sweep =>
    obtain ⟨r, hw, -⟩ := exec_bind_pure h
    obtain ⟨-, w₁, answer', hparade, hexpire⟩ := Op.exec_sweep_cases (d := t.toDesk) hs hx hw
    obtain ⟨ds, hidle, -⟩ : Incident s t.scene (.ok ()) (w₁.scene t.toDesk) := hparade.incident hs nofun
    exact (Op.exec_expirePassivated hexpire).1.rests (hidle.sound hx) List.not_mem_nil
      (hparade.rests hs hx hrests) List.not_mem_nil
  | passivateAll =>
    obtain ⟨r, hw, -⟩ := exec_bind_pure h
    exact (Op.exec_passivateAll (d := t.toDesk) hs hx hw).2.rests hs hx hrests
  | expirePassivated =>
    obtain ⟨r, hw, -⟩ := exec_bind_pure h
    exact (Op.exec_expirePassivated hw).1.rests hx List.not_mem_nil hrests List.not_mem_nil
  | peek key =>
    obtain ⟨r, hw, -⟩ := exec_bind_pure h
    rw [(Op.exec_peek hw t.toDesk).1]
    exact hrests
  | contains key =>
    obtain ⟨r, hw, -⟩ := exec_bind_pure h
    rw [(Op.exec_contains hw t.toDesk).1]
    exact hrests

/-- A `Step` other than a `.get k` that is answered with the session keeps `k` at rest. -/
theorem Step.rests (hs : s.Discreet) (hx : Sound s t.scene) (h : Step s t event t')
    (hu : event ≠ .tampered) (hgate : t.scene.Lets k) (hrests : t.scene.Rests k bytes)
    (hget : ∀ state, event ≠ .answered (.get k) (.ok (.checkedOut state))) :
    t'.scene.Rests k bytes := by
  have hstill : ∀ {y : Scene σ ι ω}, Path s t.scene [] y → y.Rests k bytes := fun hpath =>
    hpath.rests hx List.not_mem_nil hrests List.not_mem_nil
  cases h with
  | pass h hc => exact hstill (.one (.pass h fun _ => hc))
  | tamper => exact absurd rfl hu
  | edit state' h => exact hstill (.one (.edit state' h))
  | @serve request answer w hq hw =>
    have hserved := Request.rests hs hx hq hw hrests
    obtain ⟨ds, hpath, -⟩ := Request.path hs hx hq hw
    exact (Request.meet request _).rests (hpath.sound hx) List.not_mem_nil hserved List.not_mem_nil
  | @finish key state rest answer w h hw =>
    obtain ⟨slot, hslot, ho, -⟩ := hx.at_handle h
    obtain ⟨-, failed, -, -, hpath⟩ | ⟨-, -, state', -, -, -, -, hpath⟩ |
      ⟨-, message, -, -, hpath⟩ :=
      Op.exec_finish (d := t.toDesk) hs h hslot ho hw <;>
    exact hpath.rests hx (by simp) hrests (by simp)
  | @get key answer w h hw =>
    obtain ⟨slot, hslot⟩ := Option.isSome_iff_exists.mp h
    have hmeet : ∀ {d : Desk σ ι}, Path s (w.scene d) [] { w.scene d with known := insert key d.known } :=
      .one (.meet key)
    cases Op.exec_get (d := t.toDesk) hs hx hslot hw with
    | ok _ _ hpath | lost hpath | inUse _ _ hpath | stalled hpath =>
      exact (hpath.still hmeet).rests hx (by simp) hrests (by simp)
  | @miss key failure w h hw =>
    obtain ⟨hscene, -⟩ := Step.miss_scene hx h hw
    change ({ w.scene t.toDesk with known := insert key t.known } : Scene σ ι ω).Rests k bytes
    rw [hscene]
    exact hstill (.one (.meet key))
  | fetch h hw => exact hstill (.one (Step.fetch_shift hx h hw))
  | create args => exact hstill (.one (.ask args _))
  | @look task rest deadline found w h hd hw =>
    by_cases hfound : found = .taken
    · obtain rfl := hfound
      exact hstill (.one (Step.take_shift h hd hw))
    · change ({ w.scene t.toDesk with tasks := _ } : Scene σ ι ω).Rests k bytes
      rw [task.after_cons hfound, ← h]
      exact Op.exec_look_rests hs hx hw (fun he => hfound (Except.ok.inj he)) hrests
  | fail h hd hw hw' =>
    obtain ⟨ds, hpath, hwithdraw, -⟩ := Step.fail_path hs hx h hd hw hw'
    exact hwithdraw.rests (hpath.sound hx) List.not_mem_nil
      (Op.exec_look_rests hs hx hw nofun hrests) List.not_mem_nil
  | giveUp h hd hw => exact hstill (Task.withdraw_path h hd hw)
  | @introduce args rest answer w h hk hw =>
    obtain ⟨_, _, -, -, -, -, -, -, -, hpath⟩ | ⟨message, fs, -, rfl | rfl, -, hpath⟩ :=
      Op.exec_introduce (d := t.toDesk) hs h hk hw <;>
    exact hpath.rests hx (by simp) hrests (by simp)
  | @settle key rest answer w h hw =>
    obtain ⟨slot, hslot, hp, -⟩ := hx.at_task h (decide_eq_true rfl)
    obtain ⟨state, rfl, -, hpath⟩ | ⟨failure, ds, rfl, hnone, hfallen, hpath⟩ :=
      Op.exec_settle_checkOut (d := t.toDesk) hs h hslot hp hw
    · have hne : key ≠ k := fun hk => hget state (hk ▸ rfl)
      exact hpath.rests hx (by simp) hrests (by simp [hne.symm])
    · exact hfallen.rests hx hpath hgate hrests hnone

/-! ## While callbacks run -/

/-- What can happen during a callback: it moves the clock and what is outside (`Aside`), and other
callers take any `Step`. -/
inductive Meanwhile (s : Surroundings σ ι ω) :
    Traffic σ ι ω → List (Traffic.Event σ ι) → Traffic σ ι ω → Prop where
  | nil {t : Traffic σ ι ω} : Meanwhile s t [] t
  | aside {t t' : Traffic σ ι ω} {events : List (Traffic.Event σ ι)} {w : World σ ω}
      (h : Meanwhile s t events t') (ha : Aside t'.world w) : Meanwhile s t events (t'.moved w)
  | snoc {t t' t'' : Traffic σ ι ω} {events : List (Traffic.Event σ ι)} {event : Traffic.Event σ ι}
      (h : Meanwhile s t events t') (h' : Step s t' event t'') :
      Meanwhile s t (events ++ [event]) t''

/-- `Sound` reads neither `outside` nor `now`. -/
theorem Sound.aside (hx : Sound s (w.scene d)) (h : Aside w w') : Sound s (w'.scene d) := by
  rw [World.scene_aside h d]
  exact ⟨hx.distinct, hx.tracked, hx.stands, hx.room, hx.bound, hx.familiar⟩

theorem Lies.aside {p : Place σ} (hp : Lies (w.scene d) k p) (h : Aside w w') :
    Lies (w'.scene d) k p := by
  rw [World.scene_aside h d]
  exact hp.same rfl rfl Iff.rfl

/-- `Sound` is kept by `Meanwhile`, and so is `fault`. -/
theorem Meanwhile.sound (hs : s.Discreet) (h : Meanwhile s t events t') (hx : Sound s t.scene) :
    Sound s t'.scene ∧ t'.scene.fault = t.scene.fault := by
  induction h with
  | nil => exact ⟨hx, rfl⟩
  | aside _ ha ih =>
    obtain ⟨hx, hfault⟩ := ih
    refine ⟨hx.aside ha, Eq.trans ?_ hfault⟩
    exact congrArg Store.fault ha.store
  | snoc _ hstep ih =>
    obtain ⟨hx, hfault⟩ := ih
    obtain ⟨ds, hpath, -⟩ := hstep.path hs hx
    exact ⟨hpath.sound hx, hpath.surroundings.2.trans hfault⟩

/-- `k` stays at rest unless a `.get k` is answered with the session. -/
theorem Meanwhile.rests (hs : s.Discreet) (h : Meanwhile s t events t') (hx : Sound s t.scene)
    (hu : Undisturbed events) (hgate : t.scene.Lets k) (hrests : t.scene.Rests k bytes)
    (hget : ∀ state, .answered (.get k) (.ok (.checkedOut state)) ∉ events) :
    t'.scene.Rests k bytes := by
  induction h with
  | nil => exact hrests
  | aside _ ha ih =>
    obtain ⟨p, hp, hrests⟩ := ih hu hget
    exact ⟨p, hp.aside ha, hrests⟩
  | snoc h hstep ih =>
    obtain ⟨hx', hfault⟩ := h.sound hs hx
    have hearlier := ih (fun he => hu (List.mem_append_left _ he))
      fun state he => hget state (List.mem_append_left _ he)
    refine hstep.rests hs hx' ?_ (fun n => hfault ▸ hgate n) hearlier fun state he => ?_
    · rintro rfl
      exact hu (List.mem_append_right _ List.mem_cons_self)
    · exact hget state (List.mem_append_right _ (he ▸ List.mem_cons_self))

/-- `Op.seeOff` that fails has run the callbacks first and `discardRecord` after them. -/
theorem Op.exec_seeOff_failed {r : Except CacheError Unit} {message : String}
    (h : exec (seeOff s key) w = (r, w'))
    (hr : r = .error (.lifecycle key .postPassivate message)) :
    ∃ after w₂, (s.lifecycle.runPhase .postPassivate key none).run w = ((after, some message), w₂) ∧
      exec (discardRecord key) w₂ = (.ok (), w') := by
  subst hr
  obtain ⟨r₁, w₁, hf, h⟩ := exec_attempt_bind h
  rw [Lifecycle.fire, exec_bind, exec_lift] at hf
  rcases hc : (s.lifecycle.runPhase .postPassivate key none).run w with ⟨⟨after, _ | reason⟩, w₂⟩ <;>
    rw [hc] at hf <;> cases hf
  · cases h
  · obtain ⟨herror, hd⟩ :=
      exec_then_throw (fun h => (exec_discardRecord h ({} : Desk σ Unit)).1) h
    cases herror
    exact ⟨after, w₂, rfl, hd⟩

/-- `key` has neither slot nor record, and nobody has a handle for it. -/
structure Traffic.Cleared (t : Traffic σ ι ω) (key : Key) : Prop where
  gone : t.Gone key
  handles : t.handles.countP (·.1 = key) = 0

/-- `Op.passivate` of a session whose `.postPassivate` fails, while other callers take any steps
`Meanwhile`. The slots are as those steps left them, and the record of the key is deleted. Unless
one of the steps got the session, or a task is activating it, the key is `Cleared`, and the record
deleted is the one that was written before the callbacks. -/
theorem Run.atomicity {s' : Surroundings σ ι ω} (hs : s.Discreet) (halike : Op.Alike s s')
    (ht : t.Fresh s) (h : Run s t events t') (hu : Undisturbed events)
    (hgate : ∀ n, t.world.store.fault n (.delete key) = none)
    (hparade : Op.Parade s t'.world w) (hslot : w.cache.slot? key = some slot)
    (hready : slot.stage = .ready) {message : String}
    (hp : exec (Op.passivate s' key) w = (.error (.lifecycle key .postPassivate message), w')) :
    ∃ w₁ w₂ after bytes, exec (Op.passivate s' key) w = exec (Op.seeOff s' key) w₁ ∧
      w₁.cache.slot? key = none ∧ w₁.store.contents key = some bytes ∧
      (s'.lifecycle.runPhase .postPassivate key none).run w₁ = ((after, some message), w₂) ∧
      ∀ others t₂, Meanwhile s (t'.moved w₁) others t₂ → t₂.world = w₂ → Undisturbed others →
        w'.cache.slot? key = w₂.cache.slot? key ∧ w'.store.contents key = none ∧
        ((∀ state, .answered (.get key) (.ok (.checkedOut state)) ∉ others) →
          (∀ task ∈ t₂.tasks, task.awaits key = false) →
          (t₂.moved w').Cleared key ∧
            (w₂.store.contents key = none ∨ w₂.store.contents key = some bytes)) := by
  obtain ⟨ds, hpath, hds⟩ := h.path hs ht.sound hu
  obtain ⟨ds', hpath', -⟩ : Incident s t'.scene (.ok ()) (w.scene t'.toDesk) := hparade.incident hs nofun
  have hx : Sound s (w.scene t'.toDesk) := hpath'.sound (hpath.sound ht.sound)
  have hgate' : (w.scene t'.toDesk).Lets key := fun n => by
    rw [hpath'.surroundings.2, hpath.surroundings.2]
    exact hgate n
  obtain ⟨state, hr⟩ := hx.ready_of_stage hslot hready
  obtain ⟨-, hne⟩ | ⟨w₁, bytes, hnone, hrecord, hmove, hlast⟩ :=
    Op.exec_passivate_cases (d := t'.toDesk) hs halike hslot hr hp
  · exact absurd rfl (hne message)
  obtain ⟨after, w₂, hchain, hdiscard⟩ := Op.exec_seeOff_failed hlast rfl
  have hx₁ : Sound s (t'.moved w₁).scene := hmove.sound hx
  have hgate₁ : (t'.moved w₁).scene.Lets key := fun n => by
    change (w₁.scene t'.toDesk).fault n _ = none
    rw [hmove.surroundings.2]
    exact hgate' n
  have hknown : key ∈ t'.known := hx.known hslot
  refine ⟨w₁, w₂, after, bytes, hp.trans hlast.symm, hnone, hrecord, hchain, ?_⟩
  intro others t₂ hothers hw₂ hu₂
  obtain ⟨hx₂, hfault⟩ := hothers.sound hs hx₁
  obtain ⟨-, hdiscards, hscene⟩ := Op.exec_discardRecord hdiscard t₂.toDesk
  have hslot' : w'.cache.slot? key = w₂.cache.slot? key := by
    rw [show w'.cache = w₂.cache.countRemoved from congrArg Scene.cache hscene]
    rfl
  have hnone' : w'.store.contents key = none := by
    refine Scene.Drops.none hdiscards.drops fun n => ?_
    rw [← hw₂]
    exact (congrFun (congrFun hfault n) _).trans (hgate₁ n)
  refine ⟨hslot', hnone', fun hget hidle => ?_⟩
  have hrests : t₂.scene.Rests key bytes := hothers.rests hs hx₁ hu₂ hgate₁
    ⟨_, .stored hnone hrecord hknown, .stored⟩ hget
  obtain ⟨hslot₂, hrecord₂⟩ := hrests.settled hx₂ hidle
  refine ⟨⟨⟨?_, hnone'⟩, (hx₂.at_none hslot₂).2.1⟩, hw₂ ▸ hrecord₂⟩
  change ¬w'.cache.isLinked key = true
  rw [Cache.isLinked, hslot', ← hw₂, show t₂.world.cache.slot? key = none from hslot₂]
  exact Bool.false_ne_true

/-- `s` with a `.postPassivate` that does `others` and then fails. -/
def Surroundings.joined (s : Surroundings σ ι ω) (others : World σ ω → World σ ω) :
    Surroundings σ ι ω :=
  { s with
    lifecycle := {
      s.lifecycle with
      bean := {
        s.lifecycle.bean with
        callback := fun phase _ state => do
          if phase = .postPassivate then
            modify others
            return (state, some "refused")
          else return (state, none) } } }

theorem Surroundings.alike_joined (others : World Bool Journal → World Bool Journal) :
    Op.Alike (.small fun _ _ => false) ((Surroundings.small fun _ _ => false).joined others) where
  codec := rfl
  fire phase key state h := by
    cases phase <;> cases state <;> first | rfl | exact absurd rfl h

/-- Another caller's `request` is served. -/
def Surroundings.serving (s : Surroundings σ ι ω) (request : Request σ ι) (w : World σ ω) : World σ ω :=
  (exec (request.perform s) w).2

/-- Another caller calls `Op.get`. -/
def Surroundings.getting (s : Surroundings σ ι ω) (key : Key) (w : World σ ω) : World σ ω :=
  (exec (Op.get s key) w).2

theorem Meanwhile.served {w₁ w₂ : World σ ω} (t : Traffic σ ι ω) (ha : Aside w₁ w₂)
    (request : Request σ ι) (hq : request.Plain (t.moved w₂)) :
    Meanwhile s (t.moved w₁) [.answered request (exec (request.perform s) w₂).1]
      { t.moved (s.serving request w₂) with
        known := { key | key ∈ t.known ∨ request.key? = some key } } :=
  (Meanwhile.nil.aside ha).snoc (.serve (t := t.moved w₂) hq rfl)

/-- `Op.contains` of another caller during `.postPassivate` answers `true`, and afterwards the key
is `Cleared`. -/
theorem Run.atomicity_of_contains :
    ∃ events t' others t₂ w₁ w', Run (.small fun _ _ => false)
        (.small (fun _ _ => false) fun _ _ => none) events t' ∧
      exec (Op.passivate ((Surroundings.small fun _ _ => false).joined
        ((Surroundings.small fun _ _ => false).serving (.contains (.ofNat 0)))) (.ofNat 0)) t'.world =
          (.error (.lifecycle (.ofNat 0) .postPassivate "refused"), w') ∧
      Meanwhile (.small fun _ _ => false) (t'.moved w₁) others t₂ ∧
      (t₂.moved w').Cleared (.ofNat 0) := by
  obtain ⟨events, t', w', h, htasks, ⟨slot, hslot, hready⟩, hp⟩ : ∃ events t' w',
      Run (.small fun _ _ => false) (.small (fun _ _ => false) fun _ _ => none) events t' ∧
      (t'.tasks = 0 ∧ Undisturbed events) ∧
      (∃ slot, t'.world.cache.slot? (.ofNat 0) = some slot ∧ slot.stage = .ready) ∧
      exec (Op.passivate ((Surroundings.small fun _ _ => false).joined
        ((Surroundings.small fun _ _ => false).serving (.contains (.ofNat 0)))) (.ofNat 0)) t'.world =
          (.error (.lifecycle (.ofNat 0) .postPassivate "refused"), w') :=
    ⟨_, _, _, Run.nil.thenCreate true (by decide) (fun hk => hk rfl),
      ⟨rfl, by simp [Undisturbed]⟩, ⟨_, rfl, rfl⟩, rfl⟩
  obtain ⟨w₁, w₂, after, bytes, -, -, -, hchain, hothers⟩ := Run.atomicity
    Surroundings.recording_discreet (Surroundings.alike_joined _) (Traffic.opened_fresh _ _ _ _) h
    htasks.2 (fun _ => rfl) .nil hslot hready hp
  let w₃ : World Bool Journal := { w₁ with
    outside := { w₁.outside with log := w₁.outside.log ++ [⟨.postPassivate, .ofNat 0, false⟩] } }
  have hmeanwhile := Meanwhile.served (s := .small fun _ _ => false) t'
    (show Aside w₁ w₃ from ⟨rfl, rfl, Int.le_refl _, id⟩) (.contains (.ofNat 0)) trivial
  obtain ⟨-, -, hcleared⟩ := hothers _ _ hmeanwhile (congrArg Prod.snd hchain) (by simp [Undisturbed])
  obtain ⟨hcleared, -⟩ := hcleared (by simp) fun task htask =>
    absurd (htasks.1 ▸ htask) (Multiset.notMem_zero task)
  exact ⟨_, _, _, _, _, _, h, hp, hmeanwhile, hcleared⟩

/-- `Op.get` of another caller during `.postPassivate` answers the session, and afterwards its
record is deleted while it is checked out. -/
theorem Run.atomicity_broken :
    ∃ events t' answer, Run (.small fun _ _ => false)
        (.small (fun _ _ => false) fun _ _ => none) events t' ∧
      answer = exec (Op.passivate ((Surroundings.small fun _ _ => false).joined
        ((Surroundings.small fun _ _ => false).getting (.ofNat 0))) (.ofNat 0)) t'.world ∧
      answer.1 = .error (.lifecycle (.ofNat 0) .postPassivate "refused") ∧
      (t'.moved answer.2).Out (.ofNat 0) := by
  -- Both are read off one evaluation.
  have hread : ∀ {answer : Except CacheError Unit × World Bool Journal} {t' : Traffic Bool Bool Journal}
      {failure : CacheError},
      (answer.1, (answer.2.cache.slot? (.ofNat 0)).map (·.stage)) = (.error failure, some .inUse) →
      answer.1 = .error failure ∧ (t'.moved answer.2).Out (.ofNat 0) := fun h =>
    ⟨congrArg Prod.fst h, Option.map_eq_some_iff.mp (congrArg Prod.snd h)⟩
  have h := (Run.nil (s := .small fun _ _ => false)
    (t := .small (fun _ _ => false) fun _ _ => none)).thenCreate true (by decide) (fun hk => hk rfl)
  exact ⟨_, _, _, h, rfl, hread (by decide +kernel)⟩

end SessionCache
