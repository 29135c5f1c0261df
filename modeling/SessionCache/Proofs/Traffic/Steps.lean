import SessionCache.Proofs.Traffic.Handling

/-!
# Every step is a path

What the operations do, put together for the steps of a cache in use: `Step.path` says that every
step is a path of shifts, and what its deeds have to do with the answer that was given. With it,
what shifts keep holds in every state that a cache in use can get to.

* `Account`: which deeds go with which answer.
* `Step.path`, `Step.sound`, `Run.sound`.
-/

namespace SessionCache

variable {σ ι ω : Type} {s : Surroundings σ ι ω}

/-- The requests `sweep`, `passivateAll` and `expirePassivated`, which name no key. -/
def Request.IsUpkeep : Request σ ι → Prop
  | .sweep | .passivateAll | .expirePassivated => True
  | _ => False

open Op (Fallen Removed)

/-- Which deeds may go with an event of a step from the scene `x`. Each constructor is one answer of
one request. -/
inductive Account (s : Surroundings σ ι ω) (x : Scene σ ι ω) :
    Traffic.Event σ ι → List (Deed σ) → Prop where
  | quiet {ds : List (Deed σ)} (h : ∀ e ∈ ds, e.Incidental) : Account s x .quiet ds
  | tampered : Account s x .tampered [.tampered]
  /-- `create` answers `.created key`. -/
  | created {args : ι} {key : Key} {state state' : σ} (hm : s.Makes key args state)
      (ht : s.Turns .postConstruct key state state') :
      Account s x (.answered (.create args) (.ok (.created key)))
        [.fired ⟨.postConstruct, key, false⟩, .entered key state']
  /-- `create` fails, and the fresh `key` names no session. -/
  | unmade {args : ι} {key : Key} {message : String} {fs : List Firing}
      (hf : fs = [] ∨ fs = [⟨.postConstruct, key, true⟩]) :
      Account s x (.answered (.create args) (.error (.lifecycle key .postConstruct message)))
        (fs.map .fired ++ [.unmade key])
  /-- A task fails without a unit of room, by a victim that could not be passivated or for want of
  one. -/
  | noRoom {task : Task ι} {failure : CacheError} {ds : List (Deed σ)} (ht : task ∈ x.tasks)
      (h : ∀ e ∈ ds, e.Incidental)
      (hl : ∀ key phase message, failure = .lifecycle key phase message → .lost key ∈ ds)
      (hf : failure.isCapacity = true ∨ (∃ k phase message, failure = .lifecycle k phase message) ∨
        failure = .stalled) :
      Account s x (.answered task.request (.error failure)) ds
  /-- `get` answers the state that `Op.checkOut` handed out. -/
  | got {key : Key} {state : σ} (fs : List Firing) (hf : ∀ f ∈ fs, f.failed = false) :
      Account s x (.answered (.get key) (.ok (.checkedOut state)))
        (fs.map .fired ++ [.checkedOut key state])
  /-- `get` fails with the session lost, or not brought back. -/
  | fallen {key : Key} {failure : CacheError} {ds : List (Deed σ)} (h : Fallen key x failure ds) :
      Account s x (.answered (.get key) (.error failure)) ds
  /-- `get` answers `.notFound`: `key` has neither a slot nor a record. -/
  | absent {key : Key} (hslot : x.cache.slot? key = none) (hr : x.contents key = none) :
      Account s x (.answered (.get key) (.error (.notFound key))) []
  /-- `get` answers `.inUse`: the slot is checked out. -/
  | busy {key : Key} {slot : Slot σ} (hslot : x.cache.slot? key = some slot) (ho : slot.IsOut) :
      Account s x (.answered (.get key) (.error (.inUse key))) []
  /-- `get` fails because another operation works on the slot, or a call of the backend failed;
  nothing becomes of the session. -/
  | vain {key : Key} {failure : CacheError}
      (hf : failure = .stalled ∧ x.cache.slot? key ≠ none ∨ ∃ e, failure = .store e) :
      Account s x (.answered (.get key) (.error failure)) []
  /-- `finish` answers `.ok`: the session is `.ready` again. -/
  | returned {key : Key} {state state' : σ} :
      Account s x (.answered (.finish key state) (.ok .done))
        [.fired ⟨.postInvoke, key, false⟩, .returned key state']
  /-- `finish` fails in `.postInvoke`: the session is lost. -/
  | lostOut {key : Key} {state : σ} {message : String} :
      Account s x (.answered (.finish key state) (.error (.lifecycle key .postInvoke message)))
        [.fired ⟨.postInvoke, key, true⟩, .lost key]
  /-- `finish` of a session with `removePending`: it is removed. -/
  | left {key : Key} {state : σ} {failed : Bool} {r : Except CacheError Unit}
      (hr : Removed key failed r) :
      Account s x (.answered (.finish key state) (r.map fun _ => .done))
        [.fired ⟨.preDestroy, key, failed⟩, .removed key]
  /-- `removeOnFinish`, or `remove` of a checked-out session, set `removePending`. -/
  | deferred {request : Request σ ι} {key : Key} {slot : Slot σ}
      (hq : request = .remove key ∨ request = .removeOnFinish key)
      (hslot : x.cache.slot? key = some slot) (ho : slot.IsOut) :
      Account s x (.answered request (.ok .done)) [.deferred key]
  /-- `remove` removed the session. -/
  | removed {key : Key} {failed : Bool} {r : Except CacheError Unit}
      (hout : ∀ slot, x.cache.slot? key = some slot → ¬slot.IsOut) (hr : Removed key failed r) :
      Account s x (.answered (.remove key) (r.map fun _ => .done))
        [.fired ⟨.preDestroy, key, failed⟩, .removed key]
  /-- `remove` deleted a record that does not decode. -/
  | spoiled {key : Key} (hslot : x.cache.slot? key = none) :
      Account s x (.answered (.remove key) (.ok .done)) [.spoiled key]
  /-- `remove` answers `.ok` where `key` has neither a slot nor a record. -/
  | nothing {key : Key} (hslot : x.cache.slot? key = none) (hr : x.contents key = none) :
      Account s x (.answered (.remove key) (.ok .done)) []
  /-- `remove` fails and removes nothing. -/
  | refused {key : Key} {failure : CacheError} (fs : List Firing)
      (hf : failure = .stalled ∨ ∃ e, failure = .store e) :
      Account s x (.answered (.remove key) (.error failure)) (fs.map .fired)
  /-- `sweep`, `passivateAll` or `expirePassivated` answered. -/
  | upkeep {request : Request σ ι} {r : Except CacheError (Response σ)} {ds : List (Deed σ)}
      (hq : request.IsUpkeep) (h : ∀ e ∈ ds, e.Incidental)
      (hr : ∀ e, r = .error e → ∃ e', e = .store e') : Account s x (.answered request r) ds
  /-- `peek` answered; nothing becomes of the session. -/
  | peeked {key : Key} {r : Except CacheError EntryInfo}
      (h : (∃ slot, x.cache.slot? key = some slot ∧
          (slot.held = true ∧ r = .error .stalled ∨
            slot.held = false ∧ r = .ok (slot.info s.codec x.now key))) ∨
        x.cache.slot? key = none ∧
          ((∃ snapshot, r = .ok ⟨key, .passivated, none, false, snapshot⟩ ∧ x.contents key ≠ none) ∨
            (r = .error (.notFound key) ∧ x.contents key = none) ∨ ∃ e, r = .error (.store e))) :
      Account s x (.answered (.peek key) (r.map .entry)) []
  /-- `contains` answered; nothing becomes of the session. -/
  | queried {key : Key} {r : Except CacheError Bool}
      (h : r = .ok (x.cache.isLinked key || (x.contents key).isSome) ∨
        x.cache.slot? key = none ∧ ∃ e, r = .error (.store e)) :
      Account s x (.answered (.contains key) (r.map .flag)) []

variable {t t' : Traffic σ ι ω} {event : Traffic.Event σ ι}

/-- A request that names no key leaves the known keys as they are; another one adds its key. -/
theorem Request.meet (request : Request σ ι) (x : Scene σ ι ω) :
    Path s x [] { x with known := { key | key ∈ x.known ∨ request.key? = some key } } := by
  have hnone : request.key? = none →
      { x with known := { key | key ∈ x.known ∨ request.key? = some key } } = x := by
    intro h
    have hset : { key | key ∈ x.known ∨ request.key? = some key } = x.known := by
      ext key
      simp [h]
    rw [hset]
  have hsome : ∀ key, request.key? = some key →
      { key | key ∈ x.known ∨ request.key? = some key } = insert key x.known := by
    intro key h
    ext other
    simp [h, or_comm, eq_comm]
  cases h : request.key? with
  | none => rw [← h, hnone h]; exact .nil
  | some key => rw [← h, hsome key h]; exact .one (.meet key)

open Op

/-- A request that is served in one go. -/
theorem Request.path (hs : s.Discreet) (hx : Sound s t.scene) {request : Request σ ι}
    (hq : request.Plain t) {answer : Except CacheError (Response σ)} {w : World σ ω}
    (h : exec (request.perform s) t.world = (answer, w)) :
    ∃ ds, Path s t.scene ds (w.scene t.toDesk) ∧ Account s t.scene (.answered request answer) ds := by
  cases request with
  | create args => exact hq.elim
  | get key => exact hq.elim
  | finish key state => exact hq.elim
  | removeOnFinish key =>
    obtain ⟨state, hstate⟩ := hq
    obtain ⟨slot, hslot, ho⟩ := hx.out_of_mem hstate
    obtain ⟨r, hw, rfl⟩ := exec_bind_pure h
    obtain ⟨rfl, hpath⟩ := exec_removeOnFinish (d := t.toDesk) hslot ho hw
    exact ⟨_, hpath, .deferred (.inr rfl) hslot ho⟩
  | remove key =>
    obtain ⟨r, hw, rfl⟩ := exec_bind_pure h
    have hdropped := exec_remove (d := t.toDesk) hs hx hw
    generalize w.scene t.toDesk = y at hdropped ⊢
    cases hdropped with
    | absent hslot herased =>
      have hout : ∀ slot, t.scene.cache.slot? key = some slot → ¬slot.IsOut := fun slot h =>
        nomatch hslot.symm.trans h
      cases herased with
      | missed hr => exact ⟨_, .nil, .nothing hslot hr⟩
      | spoiled hpath => exact ⟨_, hpath, .spoiled hslot⟩
      | removed _ hpath hremoved => exact ⟨_, hpath, .removed hout hremoved⟩
      | @refused _ failed _ hpath =>
        exact ⟨_, hpath, .refused [⟨.preDestroy, key, failed⟩] (.inr ⟨_, rfl⟩)⟩
      | failed => exact ⟨_, .nil, .refused [] (.inr ⟨_, rfl⟩)⟩
    | ready hslot hr hpath hremoved =>
      refine ⟨_, hpath, .removed (fun slot' hslot' ho => ?_) hremoved⟩
      obtain rfl := Option.some.inj (hslot.symm.trans hslot')
      exact nomatch ho.stage.symm.trans hr.stage
    | out hslot ho hpath => exact ⟨_, hpath, .deferred (.inl rfl) hslot ho⟩
    | stalled => exact ⟨_, .nil, .refused [] (.inl rfl)⟩
  | sweep =>
    obtain ⟨r, hw, rfl⟩ := exec_bind_pure h
    obtain ⟨⟨report, rfl⟩, ds, hpath, hds, -⟩ := exec_sweep (d := t.toDesk) hs hx hw
    exact ⟨ds, hpath, .upkeep trivial hds nofun⟩
  | passivateAll =>
    obtain ⟨r, hw, rfl⟩ := exec_bind_pure h
    obtain ⟨⟨report, rfl⟩, hparade⟩ := exec_passivateAll (d := t.toDesk) hs hx hw
    obtain ⟨ds, hpath, hds, -⟩ : Incident s t.scene (.ok report) (w.scene t.toDesk) :=
      hparade.incident hs nofun
    exact ⟨ds, hpath, .upkeep trivial hds nofun⟩
  | expirePassivated =>
    obtain ⟨r, hw, rfl⟩ := exec_bind_pure h
    obtain ⟨hpath, hstore⟩ := exec_expirePassivated (d := t.toDesk) hw
    refine ⟨[], hpath, .upkeep trivial (by simp) fun e he => ?_⟩
    cases r with
    | ok n => exact nomatch he
    | error e' => cases he; exact hstore e rfl
  | peek key =>
    obtain ⟨r, hw, rfl⟩ := exec_bind_pure h
    obtain ⟨hscene, hcases⟩ := exec_peek hw t.toDesk
    exact ⟨[], hscene ▸ .nil, .peeked hcases⟩
  | contains key =>
    obtain ⟨r, hw, rfl⟩ := exec_bind_pure h
    obtain ⟨hscene, hcases⟩ := exec_contains hw t.toDesk
    exact ⟨[], hscene ▸ .nil, .queried hcases⟩

/-- An operation that gives up its search for room goes away, and its placeholder with it. -/
theorem Task.withdraw_path {task : Task ι} {rest : Multiset (Task ι)} {deadline : Deadline}
    {d : Desk σ ι} {w w' : World σ ω} {failure failure' : CacheError} (h : d.tasks = task ::ₘ rest)
    (hd : task.deadline? = some deadline)
    (hw : exec (task.withdraw failure) w = (.error failure', w')) :
    Path s (w.scene d) [] (w'.scene { d with tasks := rest }) := by
  cases task with
  | introducing => exact nomatch hd
  | settling => exact nomatch hd
  | creating args deadline =>
    cases hw
    exact .one (.quit h)
  | fetching key deadline =>
    obtain ⟨-, rfl⟩ := exec_abandon hw
    exact .one (.abandon h)

/-- A key without a slot or a record is asked for, or the backend fails. -/
theorem Step.miss_scene (hx : Sound s t.scene) {key : Key} {failure : CacheError} {w : World σ ω}
    (h : ¬t.Linked key) (hw : exec (announce key) t.world = (.error failure, w)) :
    w.scene t.toDesk = t.scene ∧
      (failure = .notFound key ∧ t.scene.contents key = none ∨ ∃ e, failure = .store e) := by
  have hslot := Traffic.slot?_of_not_linked h
  obtain ⟨⟨⟩, -⟩ | ⟨⟨⟩, hr, hscene⟩ | ⟨e, ⟨⟩, hscene⟩ :=
    exec_announce hslot (hx.at_none hslot).1 hw t.toDesk
  · exact ⟨hscene, .inl ⟨rfl, hr⟩⟩
  · exact ⟨hscene, .inr ⟨e, rfl⟩⟩

/-- A key without a slot but with a record is asked for. -/
theorem Step.fetch_shift (hx : Sound s t.scene) {key : Key} {w : World σ ω} (h : ¬t.Linked key)
    (hw : exec (announce key) t.world = (.ok (), w)) :
    Shift s t.scene []
      (w.scene { t.toDesk with
        tasks := .fetching key (.ofSettings s.settings w.now) ::ₘ t.tasks
        known := insert key t.known }) := by
  have hslot := Traffic.slot?_of_not_linked h
  obtain ⟨-, hr, hscene⟩ | ⟨⟨⟩, -⟩ | ⟨e, ⟨⟩, -⟩ :=
    exec_announce hslot (hx.at_none hslot).1 hw t.toDesk
  have hannounce := Shift.announce (s := s) (x := t.scene) (.ofSettings s.settings w.now) hslot hr
    (isPlaceholder t.world)
  change Shift s t.scene [] { w.scene t.toDesk with tasks := _, known := _ }
  rw [hscene]
  exact hannounce

/-- An operation that looks for room finds some. -/
theorem Step.take_shift {task : Task ι} {rest : Multiset (Task ι)} {deadline : Deadline}
    {w : World σ ω} (h : t.tasks = task ::ₘ rest) (hd : task.deadline? = some deadline)
    (hw : exec (Op.look s deadline) t.world = (.ok .taken, w)) :
    Shift s t.scene [] (w.scene { t.toDesk with tasks := task.after .taken ::ₘ rest }) := by
  obtain ⟨hroom, -, rfl⟩ | ⟨-, _, _, -, -, ⟨-, ⟨⟩⟩ | ⟨_, -, ⟨⟩⟩⟩ |
    ⟨-, -, -, ⟨_, ⟨⟩, -⟩ | ⟨_, ⟨⟩⟩⟩ := exec_look_cases hw
  exact .take (x := t.scene) h hd hroom

/-- An operation that found no room goes on looking for it. -/
theorem Task.after_cons (task : Task ι) {found : Look} (h : found ≠ .taken) :
    task.after found = task := by
  cases found with
  | taken => exact absurd rfl h
  | made | later => cases task <;> rfl

/-- `Step.fail` is a path: `Op.look` fails, then `Task.withdraw` takes the placeholder away. -/
theorem Step.fail_path (hs : s.Discreet) (hx : Sound s t.scene) {task : Task ι}
    {rest : Multiset (Task ι)} {deadline : Deadline} {failure : CacheError} {w w' : World σ ω}
    (h : t.tasks = task ::ₘ rest) (hd : task.deadline? = some deadline)
    (hw : exec (Op.look s deadline) t.world = (.error failure, w))
    (hw' : exec (task.withdraw failure) w = (.error failure, w')) :
    ∃ ds, Path s t.scene ds (w.scene t.toDesk) ∧
      Path s (w.scene t.toDesk) [] (w'.scene { t.toDesk with tasks := rest }) ∧
      Account s t.scene (.answered task.request (.error failure)) ds := by
  obtain ⟨⟨⟩, -⟩ | ⟨-, ⟨ds, hpath, hds, hlost⟩, hf⟩ := exec_look (d := t.toDesk) hs hx hw
  have hmem : task ∈ t.tasks := h ▸ Multiset.mem_cons_self _ _
  refine ⟨ds, hpath, Task.withdraw_path h hd hw', .noRoom hmem hds ?_ ?_⟩
  · exact fun key phase message he => hlost key phase message (congrArg _ he)
  · obtain hcapacity | hlifecycle := hf failure rfl
    · exact .inl hcapacity
    · exact .inr (.inl hlifecycle)

/-- Each step is a path of shifts whose deeds go with its event by `Account`. `Sound` at the start
is what the slots, handles and tasks of each case come from. -/
theorem Step.path (hs : s.Discreet) (hx : Sound s t.scene) (h : Step s t event t') :
    ∃ ds, Path s t.scene ds t'.scene ∧ Account s t.scene event ds := by
  cases h with
  | pass h hc => exact ⟨_, .one (.pass h fun _ => hc), .quiet (by simp)⟩
  | tamper backend => exact ⟨_, .one (.tamper backend.contents), .tampered⟩
  | edit state' h => exact ⟨_, .one (.edit state' h), .quiet (by simp)⟩
  | serve hq hw =>
    obtain ⟨ds, hpath, haccount⟩ := Request.path hs hx hq hw
    exact ⟨ds, hpath.still (Request.meet _ _), haccount⟩
  | @finish key state rest answer w h hw =>
    obtain ⟨slot, hslot, ho, -⟩ := hx.at_handle h
    obtain ⟨-, failed, hr, -, hpath⟩ | ⟨-, rfl, state', -, -, -, -, hpath⟩ |
      ⟨-, message, rfl, -, hpath⟩ :=
      exec_finish (d := t.toDesk) hs h hslot ho hw
    · exact ⟨_, hpath, .left hr⟩
    · exact ⟨_, hpath, .returned⟩
    · exact ⟨_, hpath, .lostOut⟩
  | @get key answer w h hw =>
    obtain ⟨slot, hslot⟩ := Option.isSome_iff_exists.mp h
    have hmeet : ∀ {d : Desk σ ι}, Path s (w.scene d) [] { w.scene d with known := insert key d.known } :=
      .one (.meet key)
    cases exec_get (d := t.toDesk) hs hx hslot hw with
    | ok hslot hr hpath =>
      exact ⟨_, hpath.still hmeet, .got [⟨.preInvoke, key, false⟩] (by simp)⟩
    | lost hpath => exact ⟨_, hpath.still hmeet, .fallen (.lost [] (by simp))⟩
    | inUse hslot ho hpath => exact ⟨_, hpath.still hmeet, .busy hslot ho⟩
    | stalled hpath =>
      exact ⟨_, hpath.still hmeet, .vain (.inl ⟨rfl, hslot.trans_ne (Option.some_ne_none _)⟩)⟩
  | @miss key failure w h hw =>
    have hslot := Traffic.slot?_of_not_linked h
    obtain ⟨hscene, hcases⟩ := Step.miss_scene hx h hw
    have hmeet : Path s t.scene [] { w.scene t.toDesk with known := insert key t.known } := by
      rw [hscene]
      exact .one (.meet key)
    obtain ⟨rfl, hr⟩ | ⟨e, rfl⟩ := hcases
    · exact ⟨_, hmeet, .absent hslot hr⟩
    · exact ⟨_, hmeet, .vain (.inr ⟨e, rfl⟩)⟩
  | fetch h hw => exact ⟨_, .one (Step.fetch_shift hx h hw), .quiet (by simp)⟩
  | create args => exact ⟨_, .one (.ask args _), .quiet (by simp)⟩
  | @look task rest deadline found w h hd hw =>
    obtain ⟨⟨⟩, -⟩ | ⟨hne, ⟨ds, hpath, hds, -⟩, -⟩ := exec_look (d := t.toDesk) hs hx hw
    · exact ⟨_, .one (Step.take_shift h hd hw), .quiet (by simp)⟩
    · refine ⟨ds, ?_, .quiet hds⟩
      change Path s t.scene ds { w.scene t.toDesk with tasks := _ }
      rw [task.after_cons fun hfound => hne (congrArg _ hfound), ← h]
      exact hpath
  | fail h hd hw hw' =>
    obtain ⟨ds, hpath, hwithdraw, haccount⟩ := Step.fail_path hs hx h hd hw hw'
    exact ⟨ds, hpath.still hwithdraw, haccount⟩
  | @giveUp task rest deadline w h hd hw =>
    have hmem : task ∈ t.tasks := h ▸ Multiset.mem_cons_self _ _
    exact ⟨_, Task.withdraw_path h hd hw, .noRoom hmem (by simp) (by simp) (.inr (.inr rfl))⟩
  | @introduce args rest answer w h hk hw =>
    obtain ⟨state, state', -, rfl, hm, hturns, -, -, -, hpath⟩ | ⟨message, fs, rfl, hf, -, hpath⟩ :=
      exec_introduce (d := t.toDesk) hs h hk hw
    · exact ⟨_, hpath, .created hm hturns⟩
    · exact ⟨_, hpath, .unmade hf⟩
  | @settle key rest answer w h hw =>
    obtain ⟨slot, hslot, hp, -⟩ := hx.at_task h (decide_eq_true rfl)
    obtain ⟨state, rfl, -, hpath⟩ | ⟨failure, ds, rfl, -, hfallen, hpath⟩ :=
      exec_settle_checkOut (d := t.toDesk) hs h hslot hp hw
    · exact ⟨_, hpath, .got [⟨.preActivate, key, false⟩, ⟨.postActivate, key, false⟩,
        ⟨.preInvoke, key, false⟩] (by simp)⟩
    · exact ⟨_, hpath, .fallen hfallen⟩

theorem Step.sound (hs : s.Discreet) (hx : Sound s t.scene) (h : Step s t event t') :
    Sound s t'.scene := by
  obtain ⟨ds, hpath, -⟩ := h.path hs hx
  exact hpath.sound hx

/-! ## Runs -/

/-- A `Fresh` cache is `Sound`. -/
theorem Traffic.Fresh.sound (h : t.Fresh s) : Sound s t.scene where
  distinct := by
    change t.world.cache.Distinct
    rw [h.cache]
    exact List.nodup_nil
  tracked := by
    change t.world.cache.usage.Distinct
    rw [h.cache]
    exact List.nodup_nil
  stands key := by
    have hhands : t.scene.hands key = 0 := by
      change t.handles.countP (·.1 = key) = 0
      rw [h.handles]
      rfl
    have hcomers : t.scene.comers key = 0 := by
      change t.tasks.countP (·.awaits key) = 0
      rw [h.tasks]
      rfl
    change Stands key (t.world.cache.slot? key) (t.world.cache.usage.find? key) _ _
    rw [hhands, hcomers, h.cache]
    exact .absent
  room := by
    change t.world.cache.spare = (t.tasks.countP (·.hasUnit) : Nat)
    rw [h.cache, h.tasks]
    rfl
  bound := by
    change t.world.cache.occupied ≤ _
    rw [h.cache]
    exact Int.natCast_nonneg _
  familiar key hslot := by
    change t.world.cache.slot? key ≠ none at hslot
    rw [h.cache] at hslot
    exact absurd rfl hslot

theorem Run.sound (hs : s.Discreet) {events : List (Traffic.Event σ ι)} (ht : t.Fresh s)
    (h : Run s t events t') : Sound s t'.scene := by
  induction h with
  | nil => exact ht.sound
  | snoc _ hstep ih => exact hstep.sound hs ih

end SessionCache
