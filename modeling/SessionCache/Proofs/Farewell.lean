import SessionCache.Proofs.Failure
import SessionCache.Proofs.Traffic.Keeping

/-!
# The last callbacks of a session

When a session is removed its pre-destroy callbacks run. They run once for a key and are the last
ones: afterwards the session is gone for good. The one way around this is a session in the store
whose record cannot be deleted once the callbacks have run: the caller who asked for the removal is
told that the store failed, and the session is still there.

* `NoFarewell`: no pre-destroy callbacks ran. Every operation but two is like that.
* `Step.farewell`: when pre-destroy callbacks run in a step, they run for one session, which is
  removed in that step unless its record cannot be deleted.
* `Run.farewell_once`: what holds of the callbacks of a key along a run.
-/

namespace SessionCache

variable {σ ι ω α : Type} {s : Surroundings σ ι ω} {t t' : Traffic σ ι ω}
  {event : Traffic.Event σ ι} {events : List (Traffic.Event σ ι)} {key : Key}

/-! ## Operations without pre-destroy callbacks -/

/-- No firing with `.preDestroy` was added to any log from `w` to `w'`. -/
def NoFarewell (s : Surroundings σ ι ω) (w w' : World σ ω) : Prop :=
  ∃ fs, s.Story fs w.outside w'.outside ∧ ∀ f ∈ fs, f.phase ≠ .preDestroy

open Op

namespace NoFarewell

theorem of_outside {w w' : World σ ω} (h : w'.outside = w.outside) : NoFarewell s w w' :=
  ⟨[], h ▸ .nil, by simp⟩

/-- A path whose firings are not `.preDestroy` is `NoFarewell`. -/
theorem of_path {w w' : World σ ω} {d d' : Desk σ ι} {ds : List (Deed σ)}
    (h : Path s (w.scene d) ds (w'.scene d')) (hds : ∀ f ∈ firings ds, f.phase ≠ .preDestroy) :
    NoFarewell s w w' := ⟨_, h.story, hds⟩

theorem lasting : Lasting (NoFarewell s) where
  refl _ := .of_outside rfl
  trans := by
    rintro x y z ⟨fs, hstory, hfs⟩ ⟨fs', hstory', hfs'⟩
    exact ⟨fs ++ fs', hstory.append hstory', fun f hf =>
      (List.mem_append.mp hf).elim (hfs f) (hfs' f)⟩

/-- An operation that keeps `outside` is `NoFarewell`. -/
theorem inward {op : Op σ ω α} (h : ∀ w, (exec op w).2.outside = w.outside) :
    Keeps (NoFarewell s) op := fun w => .of_outside (h w)

theorem attempt {op : Op σ ω α} (h : Keeps (NoFarewell s) op) :
    Keeps (NoFarewell s) (Op.attempt op) := h

theorem onStore (action : SessionStoreM α) :
    Keeps (NoFarewell s) (Op.onStore action : Op σ ω α) := inward fun w => by rw [exec_onStore]

theorem step (stage : Stage) (event : Event) :
    Keeps (NoFarewell s) (Op.step stage event : Op σ ω Stage) := inward fun _ => by
  unfold Op.step
  split <;> rfl

theorem fire (hs : s.Discreet) {phase : Phase} (hphase : phase ≠ .preDestroy) (key : Key)
    (state : Option σ) : Keeps (NoFarewell s) (s.lifecycle.fire phase key state) := by
  intro w
  obtain ⟨-, ⟨_, -, hfires⟩ | ⟨_, -, hfires, -⟩⟩ := exec_fire hs (w := w) rfl
  all_goals exact ⟨_, .one hfires, by simpa using hphase⟩

theorem discardRecord (key : Key) : Keeps (NoFarewell s) (Op.discardRecord key : Op σ ω Unit) :=
  lasting.bind (attempt (onStore _)) fun _ => inward fun _ => rfl

theorem forceRemove (key : Key) : Keeps (NoFarewell s) (Op.forceRemove key : Op σ ω Unit) :=
  lasting.bind (inward fun _ => rfl) fun _ => discardRecord key

/-- `op` and then the error `failure` is `NoFarewell` if `op` is. -/
theorem giveUp {op : Op σ ω Unit} (h : Keeps (NoFarewell s) op) (failure : CacheError) :
    Keeps (NoFarewell s) (do op; throw failure : Op σ ω α) :=
  lasting.bind h fun _ => lasting.throw failure

theorem takeBack (hs : s.Discreet) (key : Key) (state : σ) (failure : CacheError) :
    Keeps (NoFarewell s) (Op.takeBack s key state failure) := by
  refine lasting.bind (inward fun _ => rfl) fun _ =>
    lasting.bind (attempt (fire hs (by decide) key _)) fun undone => ?_
  cases undone with
  | error undoing => exact giveUp (forceRemove key) undoing
  | ok after => exact giveUp (inward fun _ => rfl) failure

theorem seeOff (hs : s.Discreet) (key : Key) : Keeps (NoFarewell s) (Op.seeOff s key) := by
  refine lasting.bind (attempt (fire hs (by decide) key none)) fun fired => ?_
  cases fired with
  | error failure => exact giveUp (discardRecord key) failure
  | ok _ => exact lasting.pure _

theorem passivate (hs : s.Discreet) (key : Key) : Keeps (NoFarewell s) (Op.passivate s key) := by
  refine lasting.bind (inward fun _ => rfl) fun c => ?_
  split
  · exact lasting.throw _
  · refine lasting.bind (step _ _) fun _ => ?_
    split
    · exact lasting.throw _
    · refine lasting.bind (inward fun _ => rfl) fun _ =>
        lasting.bind (attempt (fire hs (by decide) key _)) fun fired => ?_
      cases fired with
      | error failure => exact giveUp (forceRemove key) failure
      | ok after =>
        refine lasting.bind (inward fun _ => rfl) fun _ =>
          lasting.bind (attempt (onStore _)) fun written => ?_
        cases written with
        | error failure => exact takeBack hs key _ failure
        | ok _ =>
          exact lasting.bind (inward fun _ => rfl) fun _ =>
            lasting.bind (inward fun _ => rfl) fun _ => seeOff hs key

theorem look (hs : s.Discreet) {deadline : Deadline} {w w' : World σ ω} {r : Except CacheError Look}
    (h : exec (Op.look s deadline) w = (r, w')) : NoFarewell s w w' := by
  obtain ⟨-, -, rfl⟩ | ⟨-, victim, answer, -, hp, -⟩ | ⟨-, -, rfl, -⟩ := exec_look_cases h
  · exact .of_outside rfl
  · exact (passivate hs victim).at hp
  · exact .of_outside rfl

theorem parade (hs : s.Discreet) {w w' : World σ ω} (h : Parade s w w') : NoFarewell s w w' :=
  h.keeps (P := NoFarewell s w) (fun {_ _ key _ _ _} _ _ hp hw =>
    lasting.trans hw ((passivate hs key).at hp)) (lasting.refl w)

theorem expirePassivated : Keeps (NoFarewell s) (Op.expirePassivated s) := by
  unfold Op.expirePassivated
  split
  · exact lasting.pure _
  · exact lasting.bind (inward fun _ => rfl) fun _ => lasting.bind (onStore _) fun _ =>
      lasting.bind (inward fun _ => rfl) fun _ => lasting.pure _

theorem announce (key : Key) : Keeps (NoFarewell s) (Op.announce key : Op σ ω Unit) := by
  refine lasting.bind (inward fun _ => rfl) fun _ =>
    lasting.bind (attempt (onStore _)) fun answer => ?_
  rcases answer with failure | _ | _
  · exact inward fun _ => rfl
  · exact inward fun _ => rfl
  · exact lasting.pure _

theorem withdraw (task : Task ι) (failure : CacheError) :
    Keeps (NoFarewell s) (task.withdraw failure : Op σ ω Unit) := by
  cases task <;> exact inward fun _ => rfl

theorem load (hs : s.Discreet) (key : Key) : Keeps (NoFarewell s) (Op.load s key) := by
  refine lasting.bind (attempt (fire hs (by decide) key none)) fun fired => ?_
  cases fired with
  | error failure => exact giveUp (discardRecord key) failure
  | ok _ =>
    refine lasting.bind (onStore _) fun state =>
      lasting.bind (attempt (fire hs (by decide) key _)) fun fired' => ?_
    cases fired' with
    | error failure => exact giveUp (discardRecord key) failure
    | ok after => exact lasting.bind (onStore _) fun _ => lasting.pure _

theorem settle (hs : s.Discreet) (key : Key) : Keeps (NoFarewell s) (Op.settle s key) := by
  refine lasting.bind (inward fun _ => rfl) fun next => lasting.bind (inward fun _ => rfl) fun _ =>
    lasting.bind (attempt (load hs key)) fun loaded => ?_
  cases loaded with
  | error failure => exact inward fun _ => by cases failure <;> rfl
  | ok state => exact inward fun _ => rfl

theorem checkOut (hs : s.Discreet) (key : Key) : Keeps (NoFarewell s) (Op.checkOut s key) := by
  refine lasting.bind (inward fun _ => rfl) fun c => ?_
  split
  · exact lasting.throw _
  · refine lasting.bind (step _ _) fun _ => ?_
    split
    · exact lasting.throw _
    · refine lasting.bind (inward fun _ => rfl) fun _ =>
        lasting.bind (attempt (fire hs (by decide) key _)) fun fired => ?_
      cases fired with
      | error failure => exact giveUp (forceRemove key) failure
      | ok after => exact inward fun _ => rfl

end NoFarewell

/-! ## Steps -/

/-- `Op.remove` of a key without a slot that fails with an error of the store ran no callback, or
`fault` lets a delete of the key fail. -/
theorem Op.remove_refused (hs : s.Discreet) {w w' : World σ ω} (hslot : w.cache.slot? key = none)
    {e : StoreError} (h : exec (Op.remove s key) w = (.error (.store e), w')) (d : Desk σ ι) :
    w'.outside = w.outside ∨ ∃ n, w.store.fault n (.delete key) ≠ none := by
  rw [Op.remove] at h
  cases hpatience : s.patience with
  | zero => rw [hpatience] at h; cases h
  | succ looks =>
    rw [hpatience, removeLooking, exec_bind_ok (exec_cache _), hslot] at h
    dsimp only at h
    rw [removePassivated, exec_bind_ok (exec_linkPlaceholder _ _)] at h
    obtain ⟨answer, w₁, hread, h⟩ := exec_attempt_bind h
    obtain ⟨bytes, state, rfl, hc, -, hscene⟩ | ⟨rfl, -⟩ | ⟨_, _, rfl, -⟩ | ⟨e', rfl, hscene⟩ :=
      exec_readRecord hread d
    · obtain ⟨hook, w₂, hf, h⟩ := exec_attempt_bind h
      obtain ⟨haside, failed, -, hremoved⟩ := exec_farewell hs hf
      obtain ⟨answer, w₃, hd, h⟩ := exec_attempt_bind h
      obtain ⟨-, ⟨_, rfl, -⟩ | ⟨_, rfl, -, hrefused⟩⟩ := exec_removeRecord hd d
      · cases hook with
        | ok => cases h
        | error failure =>
          cases h
          cases failed <;> obtain ⟨_, hremoved⟩ := hremoved
          cases hremoved
      · refine .inr ?_
        have hstore : w₂.store = w₁.store := haside.store
        have hcontents : w₁.store.contents = w.store.contents := congrArg Scene.contents hscene
        have hfault : w₁.store.fault = w.store.fault := congrArg Scene.fault hscene
        rw [hstore, hcontents, hfault] at hrefused
        exact hrefused (hc.trans_ne (Option.some_ne_none _))
    · cases h
    · cases h
    · obtain ⟨-, rfl⟩ := exec_abandon h
      exact .inl (congrArg Scene.outside hscene)

/-- The path has one firing, `.preDestroy` of a key. After it the key is removed, or its record
stayed, `fault` lets a delete of it fail, and the event is the error of `remove`. -/
def Farewell (s : Surroundings σ ι ω) (x : Scene σ ι ω) (event : Traffic.Event σ ι)
    (x' : Scene σ ι ω) : Prop :=
  ∃ key failed ds, Path s x ds x' ∧ .tampered ∉ ds ∧ firings ds = [⟨.preDestroy, key, failed⟩] ∧
    (.removed key ∈ ds ∨ (∃ e, event = .answered (.remove key) (.error (.store e))) ∧
      ∃ n, x.fault n (.delete key) ≠ none)

theorem Farewell.of_removed {x x' : Scene σ ι ω} {failed : Bool}
    (h : Path s x [.fired ⟨.preDestroy, key, failed⟩, .removed key] x') : Farewell s x event x' :=
  ⟨key, failed, _, h, by simp, rfl, .inl (by simp)⟩

/-- A `Plain` request is `NoFarewell`, or a `Farewell`. -/
theorem Request.farewell (hs : s.Discreet) (hx : Sound s t.scene) {request : Request σ ι}
    (hq : request.Plain t) {answer : Except CacheError (Response σ)} {w : World σ ω}
    (h : exec (request.perform s) t.world = (answer, w)) :
    NoFarewell s t.world w ∨
      Farewell s t.scene (.answered request answer) (w.scene t.toDesk) := by
  cases request with
  | create | get | finish => exact hq.elim
  | removeOnFinish key =>
    obtain ⟨r, hw, -⟩ := exec_bind_pure h
    cases hw
    exact .inl (.of_outside rfl)
  | remove key =>
    obtain ⟨r, hw, rfl⟩ := exec_bind_pure h
    have hdropped := exec_remove (d := t.toDesk) hs hx hw
    have hscene : ∀ {y : Scene σ ι ω}, y = w.scene t.toDesk → y.outside = w.outside := by
      rintro y rfl
      rfl
    generalize hy : w.scene t.toDesk = y at hdropped ⊢
    cases hdropped with
    | absent hslot herased =>
      cases herased with
      | missed | failed => exact .inl (.of_outside (hscene hy.symm).symm)
      | spoiled hpath => exact .inl (.of_path (hy ▸ hpath) (by simp [firings, Deed.firing?]))
      | removed _ hpath => exact .inr (.of_removed hpath)
      | refused hpath =>
        obtain houtside | hgate := Op.remove_refused hs hslot hw t.toDesk
        · exact .inl (.of_outside houtside)
        · exact .inr ⟨key, _, _, hpath, by simp, rfl, .inr ⟨⟨_, rfl⟩, hgate⟩⟩
    | ready _ _ hpath => exact .inr (.of_removed hpath)
    | out _ _ hpath => exact .inl (.of_path (hy ▸ hpath) (by simp [firings, Deed.firing?]))
    | stalled => exact .inl (.of_outside (hscene hy.symm).symm)
  | sweep =>
    obtain ⟨r, hw, -⟩ := exec_bind_pure h
    obtain ⟨-, w₁, answer', hparade, hold⟩ := exec_sweep_cases (d := t.toDesk) hs hx hw
    exact .inl (NoFarewell.lasting.trans (.parade hs hparade) (NoFarewell.expirePassivated.at hold))
  | passivateAll =>
    obtain ⟨r, hw, -⟩ := exec_bind_pure h
    exact .inl (.parade hs (exec_passivateAll (d := t.toDesk) hs hx hw).2)
  | expirePassivated =>
    obtain ⟨r, hw, -⟩ := exec_bind_pure h
    exact .inl (NoFarewell.expirePassivated.at hw)
  | peek key =>
    obtain ⟨r, hw, -⟩ := exec_bind_pure h
    exact .inl (.of_outside (congrArg Scene.outside (exec_peek hw t.toDesk).1))
  | contains key =>
    obtain ⟨r, hw, -⟩ := exec_bind_pure h
    exact .inl (.of_outside (congrArg Scene.outside (exec_contains hw t.toDesk).1))

/-- A step is `NoFarewell`, or a `Farewell`. -/
theorem Step.farewell (hs : s.Discreet) (hx : Sound s t.scene) (h : Step s t event t') :
    NoFarewell s t.world t'.world ∨ Farewell s t.scene event t'.scene := by
  cases h with
  | pass | tamper | edit | create => exact .inl (.of_outside rfl)
  | @serve request answer w hq hw =>
    refine (Request.farewell hs hx hq hw).imp_right ?_
    rintro ⟨key, failed, ds, hpath, hds⟩
    exact ⟨key, failed, ds, hpath.still (Request.meet request _), hds⟩
  | @finish key state rest answer w h hw =>
    obtain ⟨slot, hslot, ho, -⟩ := hx.at_handle h
    obtain ⟨-, failed, -, -, hpath⟩ | ⟨-, -, state', -, -, -, -, hpath⟩ |
      ⟨-, message, -, -, hpath⟩ := exec_finish (d := t.toDesk) hs h hslot ho hw
    · exact .inr (.of_removed hpath)
    · exact .inl (.of_path hpath (by simp [firings, Deed.firing?]))
    · exact .inl (.of_path hpath (by simp [firings, Deed.firing?]))
  | @get key answer w hl hw =>
    obtain ⟨slot, hslot⟩ := Option.isSome_iff_exists.mp hl
    refine .inl ?_
    rw [Traffic.handed_world]
    obtain ⟨-, rfl⟩ | ⟨rfl, -⟩ | ⟨state, -, hw⟩ := exec_get_cases (d := t.toDesk) hx hslot hw
    · exact .of_outside rfl
    · exact .of_outside rfl
    · have hpromote : NoFarewell s t.world { t.world with cache := t.world.cache.promote key } :=
        .of_outside rfl
      exact NoFarewell.lasting.trans hpromote ((NoFarewell.checkOut hs key).at hw)
  | miss _ hw | fetch _ hw => exact .inl ((NoFarewell.announce _).at hw)
  | look _ _ hw => exact .inl (.look hs hw)
  | @fail task _ _ failure _ _ _ _ hw hw' =>
    exact .inl (NoFarewell.lasting.trans (.look hs hw) ((NoFarewell.withdraw task failure).at hw'))
  | @giveUp task _ _ _ _ _ hw => exact .inl ((NoFarewell.withdraw task _).at hw)
  | @introduce args rest answer w h hk hw =>
    obtain ⟨_, _, _, _, _, _, _, _, _, hpath⟩ | ⟨_, fs, _, hfs, _, hpath⟩ :=
      exec_introduce (d := t.toDesk) hs h hk hw
    · exact .inl (.of_path hpath (by simp [firings, Deed.firing?]))
    · refine .inl (.of_path hpath ?_)
      rw [firings_fired_append]
      obtain rfl | rfl := hfs <;> simp [firings, Deed.firing?]
  | @settle key rest answer w h hw =>
    refine .inl ?_
    rw [Traffic.handed_world]
    exact (NoFarewell.lasting.bind (NoFarewell.settle hs key) fun _ =>
      NoFarewell.checkOut hs key).at hw

/-! ## Runs -/

/-- The last firing of `fs` is `.preDestroy`, and no other one is. -/
def EndsInFarewell (key : Key) (fs : List Firing) : Prop :=
  ∃ before failed, fs = before ++ [⟨.preDestroy, key, failed⟩] ∧
    ∀ f ∈ before, f.phase ≠ .preDestroy

/-- `NoFarewell` adds no `.preDestroy` to the firings of `key` in a log. -/
theorem NoFarewell.heard {log : ω → List Firing} (hlog : s.Logs log)
    (h : NoFarewell s t.world t'.world) (key : Key) :
    ∃ fs, t'.heard log key = t.heard log key ++ fs ∧ ∀ f ∈ fs, f.phase ≠ .preDestroy := by
  obtain ⟨fs, hstory, hfs⟩ := h
  refine ⟨fs.filter (·.key = key), ?_, fun f hf => hfs f (List.mem_filter.mp hf).1⟩
  rw [Traffic.heard, hstory.log hlog, List.filter_append]
  rfl

/-- A run adds nothing to the firings of a key that is `.gone`. -/
theorem Run.silent (hs : s.Discreet) {log : ω → List Firing} (hlog : s.Logs log)
    (hx : Sound s t.scene) (hp : Lies t.scene key .gone) (h : Run s t events t')
    (hu : Undisturbed events) : t'.heard log key = t.heard log key := by
  obtain ⟨ds, hpath, hds⟩ := h.path hs hx hu
  rw [hpath.heard hlog, (hpath.gone hx hds hp).2]
  exact List.append_nil _

/-- A step adds no `.preDestroy` of `key`, or adds that alone and `key` is `Over`, unless a delete
was refused. -/
theorem Step.parting (key : Key) (hs : s.Discreet) {log : ω → List Firing} (hlog : s.Logs log)
    (hx : Sound s t.scene) (ht : t.scene.Tidy) (h : Step s t event t')
    (hkept : (∃ n, t.world.store.fault n (.delete key) ≠ none) →
      ∀ e, event ≠ .answered (.remove key) (.error (.store e))) :
    ∃ fs, t'.heard log key = t.heard log key ++ fs ∧
      ((∀ f ∈ fs, f.phase ≠ .preDestroy) ∨
        EndsInFarewell key fs ∧ Lies t'.scene key .gone) := by
  obtain hno | ⟨k, failed, ds, hpath, hu', hds, hend⟩ := h.farewell hs hx
  · obtain ⟨fs, hfs, hphase⟩ := hno.heard hlog key
    exact ⟨fs, hfs, .inl hphase⟩
  · refine ⟨firings (about key ds), hpath.heard hlog key, ?_⟩
    rw [firings_about, hds]
    by_cases hk : k = key
    · subst hk
      refine .inr ⟨⟨[], failed, by simp, by simp⟩, ?_⟩
      obtain hremoved | ⟨⟨e, he⟩, hgate⟩ := hend
      · obtain ⟨p, hp⟩ := ht k
        exact hpath.of_removed hx hu' hp ⟨_, hremoved, .inl rfl⟩
      · exact absurd he (hkept hgate e)
    · exact .inl (by simp [hk])

/-- In each run, `.preDestroy` of `key` is fired at most once, is the last firing of `key`, and
leaves it `Over`, unless `fault` can refuse a delete of `key` and a `remove key` was answered with
an error of the store. -/
theorem Run.farewell_once (hs : s.Discreet) {log : ω → List Firing} (hlog : s.Logs log) (ht : t.Fresh s)
    (h : Run s t events t') (hu : Undisturbed events) (key : Key)
    (hkept : (∃ n, t.world.store.fault n (.delete key) ≠ none) →
      ∀ e, .answered (.remove key) (.error (.store e)) ∉ events) :
    ∃ fs, t'.heard log key = t.heard log key ++ fs ∧
      ((∀ f ∈ fs, f.phase ≠ .preDestroy) ∨
        EndsInFarewell key fs ∧ t'.Over s key ∧
          ∀ later t'', Run s t' later t'' → Undisturbed later →
            t''.heard log key = t'.heard log key) := by
  suffices hgone : ∃ fs, t'.heard log key = t.heard log key ++ fs ∧
      ((∀ f ∈ fs, f.phase ≠ .preDestroy) ∨ EndsInFarewell key fs ∧ Lies t'.scene key .gone) by
    have hx := h.sound hs ht
    obtain ⟨fs, hfs, hno | ⟨hends, hp⟩⟩ := hgone
    · exact ⟨fs, hfs, .inl hno⟩
    · exact ⟨fs, hfs, .inr ⟨hends, hp.over hs hx, fun later t'' hlater hu' =>
        hlater.silent hs hlog hx hp hu'⟩⟩
  -- Induction on the run: once the callbacks ran, the session is gone and nothing more is heard.
  induction h with
  | nil => exact ⟨[], (List.append_nil _).symm, .inl (by simp)⟩
  | @snoc t₁ t₂ events event h hstep ih =>
    have hu₁ : Undisturbed events := fun hmem => hu (List.mem_append_left _ hmem)
    have hevent : event ≠ .tampered := fun he => hu (by simp [he])
    have hx₁ := h.sound hs ht
    obtain ⟨ds, hpath, -⟩ := h.path hs ht.sound hu₁
    have hfault : t₁.world.store.fault = t.world.store.fault := hpath.surroundings.2
    obtain ⟨fs, hfs, hno | ⟨hends, hp⟩⟩ := ih hu₁ fun hgate e hmem =>
      hkept hgate e (List.mem_append_left _ hmem)
    · obtain ⟨fs', hfs', hcases⟩ := hstep.parting key hs hlog hx₁ (h.tidy hs ht hu₁)
        fun hgate e he => hkept (hfault ▸ hgate) e (by simp [he])
      refine ⟨fs ++ fs', by rw [hfs', hfs, List.append_assoc], ?_⟩
      obtain hno' | ⟨⟨before, failed, rfl, hbefore⟩, hp⟩ := hcases
      · exact .inl fun f hf => (List.mem_append.mp hf).elim (hno f) (hno' f)
      · exact .inr ⟨⟨fs ++ before, failed, (List.append_assoc ..).symm, fun f hf =>
          (List.mem_append.mp hf).elim (hno f) (hbefore f)⟩, hp⟩
    · obtain ⟨ds, hpath, haccount⟩ := hstep.path hs hx₁
      obtain ⟨hp', habout⟩ := hpath.gone hx₁ (haccount.untampered hevent) hp
      refine ⟨fs, ?_, .inr ⟨hends, hp'⟩⟩
      rw [hpath.heard hlog, habout, hfs]
      exact List.append_nil _

/-- `remove` of a ready session: `.preDestroy` is its last firing. -/
theorem Run.farewell_of_ready :
    ∃ events t', Run (.small fun _ _ => false) (.small (fun _ _ => false) fun _ _ => none) events t' ∧
      t'.heard Journal.log (.ofNat 0) =
        [⟨.postConstruct, .ofNat 0, false⟩, ⟨.preDestroy, .ofNat 0, false⟩] ∧
      t'.Over (.small fun _ _ => false) (.ofNat 0) := by
  have h₁ := (Run.nil (s := .small fun _ _ => false)
    (t := .small (fun _ _ => false) fun _ _ => none)).thenCreate true (by decide) (fun hk => hk rfl)
  have h₂ : Run _ _ [.quiet, .quiet, .answered (.create true) (.ok (.created (.ofNat 0))),
      .answered (.remove (.ofNat 0)) (.ok .done)] _ := h₁.thenServe (.remove (.ofNat 0)) trivial
  obtain ⟨fs, hfs, hcases⟩ := Run.farewell_once Surroundings.recording_discreet
    Surroundings.recording_logs (Traffic.opened_fresh _ _ _ _) h₂ (by simp [Undisturbed]) (.ofNat 0)
    (fun ⟨_, hgate⟩ => absurd rfl hgate)
  obtain rfl : [⟨.postConstruct, .ofNat 0, false⟩, ⟨.preDestroy, .ofNat 0, false⟩] = fs := hfs
  obtain hno | ⟨-, hover, -⟩ := hcases
  · exact absurd rfl (hno ⟨.preDestroy, .ofNat 0, false⟩ (by simp))
  · exact ⟨_, _, h₂, rfl, hover⟩

/-- The first five calls fail if they are `delete`. -/
def refusesAtFirst (n : Nat) (call : StoreCall) : Option StoreError :=
  if n < 5 then refusesDelete n call else none

/-- `remove` of a passivated session whose deletes fail: `.preDestroy` is fired twice, and then
`get` succeeds and fires `.preActivate`, `.postActivate` and `.preInvoke`. -/
theorem Run.farewell_repeated :
    ∃ events t', Run (.small fun _ _ => false) (.small (fun _ _ => false) refusesAtFirst) events t' ∧
      (t'.heard Journal.log (.ofNat 0)).map (·.phase) =
        [.postConstruct, .prePassivate, .postPassivate, .preDestroy, .preDestroy, .preActivate,
          .postActivate, .preInvoke] ∧
      t'.handles = {(.ofNat 0, true)} := by
  have h₁ := (Run.nil (s := .small fun _ _ => false)
    (t := .small (fun _ _ => false) refusesAtFirst)).thenCreate true (by decide) (fun hk => hk rfl)
  have h₂ := ((h₁.thenServe .passivateAll trivial).thenServe (.remove (.ofNat 0)) trivial).thenServe
    (.remove (.ofNat 0)) trivial
  -- The record is read on the way, which only the kernel computes in good time.
  have h₃ := (fun (h : _ ∧ _ ∧ _) => h₂.thenFetch (.ofNat 0) h.1 h.2.1 h.2.2) (by decide +kernel)
  exact ⟨_, _, h₃, (by decide +kernel : _ ∧ _)⟩

end SessionCache
