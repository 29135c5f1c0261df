import SessionCache.Proofs.Traffic.Steps

/-!
# Operations that wait, as runs

`Op.create` and `Op.get` look for room until a look decides, and wait in between; what others do
meanwhile is what `Surroundings.wait` does to the world. Where that is any number of steps by
others (`Surroundings.Company`), the whole operation is a run: its own steps, and theirs in between.

* `Step.frame`: a step is possible in the same way while one more operation is under way.
* `Run.create`, `Run.get`: the two operations from their start to their answer.
-/

namespace SessionCache

variable {σ ι ω : Type} {s : Surroundings σ ι ω}

/-! ## One more operation under way -/

namespace Traffic

/-- `t` with `task` among its `tasks`. -/
def joined (t : Traffic σ ι ω) (task : Task ι) : Traffic σ ι ω :=
  { t with tasks := task ::ₘ t.tasks }

theorem joined_handed (t : Traffic σ ι ω) (task : Task ι) (key : Key) (r : Except CacheError σ) :
    (t.handed key r).joined task = (t.joined task).handed key r := by
  cases r <;> rfl

end Traffic

variable {t t' : Traffic σ ι ω} {event : Traffic.Event σ ι} {events : List (Traffic.Event σ ι)}

theorem Request.Plain.joined {request : Request σ ι} (h : request.Plain t) (task : Task ι) :
    request.Plain (t.joined task) := by
  cases request <;> exact h

/-- A step stays possible with one more task beside it. -/
theorem Step.frame (h : Step s t event t') (task : Task ι) :
    Step s (t.joined task) event (t'.joined task) := by
  have hswap : ∀ {other : Task ι} {rest : Multiset (Task ι)}, t.tasks = other ::ₘ rest →
      (t.joined task).tasks = other ::ₘ task ::ₘ rest := fun h =>
    (congrArg (task ::ₘ ·) h).trans (Multiset.cons_swap _ _ _)
  cases h with
  | pass h hc => exact .pass h hc
  | tamper backend => exact .tamper backend
  | edit state' h => exact .edit (t := t.joined task) state' h
  | serve h hw => exact .serve (t := t.joined task) (h.joined task) hw
  | finish h hw => exact .finish (t := t.joined task) h hw
  | get h hw =>
    rw [Traffic.joined_handed]
    exact .get (t := t.joined task) h hw
  | miss h hw => exact .miss (t := t.joined task) h hw
  | @fetch key w h hw =>
    have hstep := Step.fetch (s := s) (t := t.joined task) h hw
    unfold Traffic.joined at hstep ⊢
    dsimp only [Traffic.moved, Traffic.met] at hstep ⊢
    rwa [Multiset.cons_swap] at hstep
  | create args =>
    have hstep := Step.create (s := s) (t := t.joined task) args
    unfold Traffic.joined at hstep ⊢
    dsimp only at hstep ⊢
    rwa [Multiset.cons_swap] at hstep
  | look h hd hw =>
    have hstep := Step.look (s := s) (hswap h) hd hw
    unfold Traffic.joined at hstep ⊢
    dsimp only [Traffic.moved] at hstep ⊢
    rwa [Multiset.cons_swap] at hstep
  | fail h hd hw hw' => exact .fail (hswap h) hd hw hw'
  | giveUp h hd hw => exact .giveUp (hswap h) hd hw
  | introduce h hk hw => exact .introduce (hswap h) hk hw
  | settle h hw =>
    rw [Traffic.joined_handed]
    exact .settle (hswap h) hw

theorem Run.frame (h : Run s t events t') (task : Task ι) :
    Run s (t.joined task) events (t'.joined task) := by
  induction h with
  | nil => exact .nil
  | snoc _ hstep ih => exact .snoc ih (hstep.frame task)

/-! ## What others do meanwhile -/

/-- What others do during `s.wait` are steps of traffic that `Fits`, and `Op.look` and `Op.announce`
lead to traffic that `Fits` again. -/
structure Surroundings.Company (s : Surroundings σ ι ω) (Fits : Traffic σ ι ω → Prop) : Prop where
  wait : ∀ t d, Fits t →
    ∃ events t', Run s t events t' ∧ t'.world = ((s.wait d).run t.world).2 ∧ Fits t'
  look : ∀ t deadline found w, Fits t → exec (Op.look s deadline) t.world = (.ok found, w) →
    Fits (t.moved w)
  announce : ∀ t key w, Fits t → ¬t.Linked key → exec (Op.announce key) t.world = (.ok (), w) →
    Fits ((t.moved w).met key)

theorem Step.run (h : Step s t event t') : Run s t [event] t' := .snoc .nil h

theorem Task.after_of_ne (task : Task ι) {found : Look} (h : found ≠ .taken) :
    task.after found = task := by
  cases found with
  | taken => exact absurd rfl h
  | made | later => cases task <;> rfl

variable {Fits : Traffic σ ι ω → Prop} {task : Task ι} {deadline : Deadline} {w : World σ ω}

/-- `Op.acquire` as a run of `Step.look`, with the steps of others during the waits. It ends with a
unit of room, at a look that fails, or with `.stalled`. -/
theorem Run.acquire (hs : s.Company Fits) (task : Task ι) (hd : task.deadline? = some deadline)
    (looks : Nat)
    {r : Except CacheError Unit} (ht : Fits t)
    (h : exec (Op.acquire s deadline looks) t.world = (r, w)) :
    ∃ events t', Fits t' ∧
      (r = .ok () ∧ t'.world = w ∧
          Run s (t.joined task) events (t'.joined (task.after .taken)) ∨
        Run s (t.joined task) events (t'.joined task) ∧
          ∃ e, r = .error e ∧
            (exec (Op.look s deadline) t'.world = (.error e, w) ∨ e = .stalled ∧ t'.world = w)) := by
  induction looks generalizing t with
  | zero =>
    cases h
    exact ⟨[], t, ht, .inr ⟨.nil, .stalled, rfl, .inr ⟨rfl, rfl⟩⟩⟩
  | succ looks ih =>
    rw [Op.acquire] at h
    obtain ⟨found, w₁, hlook, h⟩ | ⟨e, hlook, rfl⟩ := exec_bind_cases h
    · have hstep : Step s (t.joined task) .quiet ((t.moved w₁).joined (task.after found)) :=
        .look rfl hd hlook
      have hfits := hs.look t deadline found w₁ ht hlook
      cases found with
      | taken =>
        cases h
        exact ⟨[.quiet], _, hfits, .inl ⟨rfl, rfl, hstep.run⟩⟩
      | made =>
        rw [task.after_of_ne (show Look.made ≠ .taken from nofun)] at hstep
        obtain ⟨events, t', ht', h'⟩ := ih hfits h
        refine ⟨[.quiet] ++ events, t', ht', ?_⟩
        exact h'.imp (fun h => ⟨h.1, h.2.1, hstep.run.trans h.2.2⟩)
          fun h => ⟨hstep.run.trans h.1, h.2⟩
      | later d =>
        rw [task.after_of_ne (show Look.later d ≠ .taken from nofun)] at hstep
        obtain ⟨events, t₁, hwait, hw, hfits⟩ := hs.wait _ d hfits
        rw [exec_bind_ok (exec_lift _ _)] at h
        obtain ⟨events', t', ht', h'⟩ := ih hfits (hw ▸ h)
        have hrun := hstep.run.trans (hwait.frame task)
        refine ⟨[.quiet] ++ events ++ events', t', ht', ?_⟩
        exact h'.imp (fun h => ⟨h.1, h.2.1, hrun.trans h.2.2⟩) fun h => ⟨hrun.trans h.1, h.2⟩
    · exact ⟨[], t, ht, .inr ⟨.nil, e, rfl, .inl hlook⟩⟩

/-- The end of an operation that got no unit of room, as `Step.fail` or `Step.giveUp`. -/
theorem Run.withdraw (hd : task.deadline? = some deadline) {failure : CacheError}
    {w' : World σ ω} (h : Run s t events (t'.joined task))
    (hlook : exec (Op.look s deadline) t'.world = (.error failure, w) ∨
      failure = .stalled ∧ t'.world = w)
    (hw : exec (task.withdraw failure) w = (.error failure, w')) :
    Run s t (events ++ [.answered task.request (.error failure)]) (t'.moved w') := by
  obtain hlook | ⟨rfl, rfl⟩ := hlook
  · exact .snoc h (.fail (t := t'.joined task) rfl hd hlook hw)
  · exact .snoc h (.giveUp (t := t'.joined task) rfl hd hw)

/-- `Op.create` as a run that ends in its answer. -/
theorem Run.create (hs : s.Company Fits)
    (hk : ∀ t, Fits t → (s.freshKey.run t.world).1 ∉ t.known) (ht : Fits t) {args : ι}
    {r : Except CacheError Key} (h : exec (Op.create s args) t.world = (r, w)) :
    ∃ events t', t'.world = w ∧
      Run s t (events ++ [.answered (.create args) (r.map .created)]) t' := by
  have hask := (Step.create (s := s) (t := t) args).run
  rw [Op.create] at h
  obtain ⟨⟨⟩, w₁, hreserve, h⟩ | ⟨e, hreserve, rfl⟩ := exec_bind_cases h
  · rw [Op.reserve, exec_bind_ok (Op.exec_now _)] at hreserve
    obtain ⟨events, t', ht', ⟨-, rfl, hrun⟩ | ⟨-, e, he, -⟩⟩ :=
      Run.acquire hs (.creating args _) rfl _ ht hreserve
    · have hstep := Step.introduce (t := t'.joined (.introducing args)) rfl (hk t' ht') h
      exact ⟨[.quiet] ++ events, _, rfl, .snoc (hask.trans hrun) hstep⟩
    · exact nomatch he
  · rw [Op.reserve, exec_bind_ok (Op.exec_now _)] at hreserve
    obtain ⟨events, t', ht', ⟨he, -⟩ | ⟨hrun, e', he, hend⟩⟩ :=
      Run.acquire hs (.creating args _) rfl _ ht hreserve
    · exact nomatch he
    · cases he
      exact ⟨[.quiet] ++ events, _, rfl, (hask.trans hrun).withdraw rfl hend rfl⟩

/-- `Op.get` of a key with its placeholder, as a run that ends in its answer. -/
theorem Run.fetched (hs : s.Company Fits) (ht : Fits t) {key : Key} {r : Except CacheError σ}
    (h : exec ((do
        match ← Op.attempt (Op.reserve s) with
        | .error failure => Op.abandon key failure
        | .ok () => Op.settle s key : Op σ ω Unit) >>= fun _ => Op.checkOut s key) t.world =
      (r, w)) :
    ∃ events t', t'.world = w ∧
      Run s (t.joined (.fetching key (.ofSettings s.settings t.world.now)))
        (events ++ [.answered (.get key) (r.map .checkedOut)]) t' := by
  rw [bind_assoc] at h
  obtain ⟨answer, w₁, hreserve, h⟩ := Op.exec_attempt_bind h
  rw [Op.reserve, exec_bind_ok (Op.exec_now _)] at hreserve
  obtain ⟨events, t', ht', ⟨rfl, rfl, hrun⟩ | ⟨hrun, e, rfl, hend⟩⟩ :=
    Run.acquire hs (.fetching key _) rfl _ ht hreserve
  · exact ⟨events, _, Traffic.handed_world _ _ _,
      .snoc hrun (.settle (t := t'.joined (.settling key)) rfl h)⟩
  · rw [exec_bind] at h
    rcases ha : exec (Op.abandon (α := Unit) key e) w₁ with ⟨r', w'⟩
    obtain ⟨rfl, -⟩ := Op.exec_abandon ha
    rw [ha] at h
    cases h
    exact ⟨events, _, rfl, hrun.withdraw rfl hend ha⟩

/-- `Op.get` of a key without a slot is `Op.activate`, then `Op.checkOut`. -/
theorem Op.get_of_none (hp : s.patience ≠ 0) {key : Key} (hslot : w.cache.slot? key = none) :
    exec (Op.get s key) w = exec (do Op.activate s key; Op.checkOut s key) w := by
  obtain ⟨looks, hlooks⟩ := Nat.exists_eq_succ_of_ne_zero hp
  have hpromote : ({ w with cache := w.cache.promote key } : World σ ω) = w := by
    rw [Cache.promote_of_none hslot]
  rw [Op.get, hlooks, Op.getLooking, exec_bind_ok (Op.exec_modifyCache _ _), hpromote,
    exec_bind_ok (Op.exec_cache _)]
  simp only [hslot]

/-- `Op.get` as a run that ends in its answer. -/
theorem Run.get (hs : s.Company Fits) (hp : s.patience ≠ 0) (ht : Fits t) {key : Key}
    {r : Except CacheError σ} (h : exec (Op.get s key) t.world = (r, w)) :
    ∃ events t', t'.world = w ∧
      Run s t (events ++ [.answered (.get key) (r.map .checkedOut)]) t' := by
  by_cases hlinked : t.Linked key
  · exact ⟨[], _, Traffic.handed_world _ _ _, (Step.get hlinked h).run⟩
  · have hslot := Traffic.slot?_of_not_linked hlinked
    rw [Op.get_of_none hp hslot, Op.activate, bind_assoc] at h
    obtain ⟨⟨⟩, w₁, hannounce, h⟩ | ⟨e, hannounce, rfl⟩ := exec_bind_cases h
    · have hstep := (Step.fetch (s := s) hlinked hannounce).run
      have hfits := hs.announce t key w₁ ht hlinked hannounce
      obtain ⟨events, t', hw, hrun⟩ := Run.fetched hs hfits h
      exact ⟨[.quiet] ++ events, t', hw, List.append_assoc _ _ _ ▸ hstep.trans hrun⟩
    · exact ⟨[], _, rfl, (Step.miss hlinked hannounce).run⟩

end SessionCache
