import SessionCache.Proofs.Traffic.Ledger
import SessionCache.Proofs.Traffic.Places
import SessionCache.Proofs.Traffic.Recording

/-!
# Removal

A session that was removed does not come back: its key has neither a slot nor a record, whatever
happens later, and nobody is told otherwise. A session that is checked out is removed when it comes
back, and until then it stays checked out.

* `Traffic.Over`: there is no session under a key, now and ever after, and to remove it again is
  harmless.
* `Traffic.Pending`: a session is to be removed once it comes back.
* `Run.removal`: what removing a session leads to.
-/

namespace SessionCache

variable {σ ι ω : Type} {s : Surroundings σ ι ω} {x x' : Scene σ ι ω} {ds : List (Deed σ)}
  {t t' : Traffic σ ι ω} {event : Traffic.Event σ ι} {events : List (Traffic.Event σ ι)} {k : Key}

namespace Traffic

/-- `key` has neither a slot nor a record. -/
def Gone (t : Traffic σ ι ω) (key : Key) : Prop :=
  ¬t.Linked key ∧ t.world.store.contents key = none

/-- The slot of `key` is `.inUse`. -/
def Out (t : Traffic σ ι ω) (key : Key) : Prop :=
  ∃ slot, t.world.cache.slot? key = some slot ∧ slot.stage = .inUse

/-- The slot of `key` is `.inUse` with `removePending`. -/
def Pending (t : Traffic σ ι ω) (key : Key) : Prop :=
  ∃ slot, t.world.cache.slot? key = some slot ∧ slot.stage = .inUse ∧ slot.removePending = true

/-- The firings of `key` in `log`. -/
def heard (log : ω → List Firing) (t : Traffic σ ι ω) (key : Key) : List Firing :=
  (log t.world.outside).filter (·.key = key)

/-- If the request is a look-up of `key`, the answer tells of no session: `.notFound key` from `get`
and `peek`, `false` from `contains`, or an error of the store. -/
def Event.Denies (key : Key) : Event σ ι → Prop
  | .answered (.get k) r | .answered (.peek k) r =>
    k = key → r = .error (.notFound key) ∨ ∃ e, r = .error (.store e)
  | .answered (.contains k) r => k = key → r = .ok (.flag false) ∨ ∃ e, r = .error (.store e)
  | _ => True

end Traffic

/-! ## A key without a session -/

/-- No deed is about a key that is `.gone`, and it stays so. -/
theorem Hop.of_gone {p : Place σ} (h : Hop s x k .gone ds p) : p = .gone ∧ ds = [] := by
  cases h
  exact ⟨rfl, rfl⟩

theorem Path.gone (hx : Sound s x) (h : Path s x ds x') (hu : .tampered ∉ ds)
    (hp : Lies x k .gone) : Lies x' k .gone ∧ about k ds = [] := by
  obtain ⟨p, hp', rfl, hds⟩ := h.follow hx hu hp (P := fun p es => p = .gone ∧ es = [])
    ⟨rfl, rfl⟩ fun _ _ hhop ⟨hq, hes⟩ => by
      obtain ⟨rfl, rfl⟩ := (hq ▸ hhop).of_gone
      exact ⟨rfl, (List.append_nil _).trans hes⟩
  exact ⟨hp', hds⟩

/-- A deed with the key `k` is among those about `k`. -/
theorem mem_about {e : Deed σ} (he : e ∈ ds) (hk : e.key? = some k) : e ∈ about k ds :=
  List.mem_filter.mpr ⟨he, decide_eq_true hk⟩

theorem Lies.of_gone (h : Lies t.scene k .gone) :
    t.world.cache.slot? k = none ∧ t.world.store.contents k = none ∧ k ∈ t.known := by
  cases h with
  | gone hs hr hk => exact ⟨hs, hr, hk⟩

theorem Lies.gone_of_gone (h : Lies t.scene k .gone) : t.Gone k := by
  obtain ⟨hs, hr, -⟩ := h.of_gone
  exact ⟨by simp [Traffic.Linked, Cache.isLinked, hs], hr⟩

/-- Where `key` has neither a slot nor a record, the answer of a step `Denies` it. -/
theorem Step.denies (hs : s.Discreet) (hx : Sound s t.scene) (hp : Lies t.scene k .gone)
    (hstep : Step s t event t') (hu : event ≠ .tampered) : event.Denies k := by
  obtain ⟨hslot, hr, -⟩ := hp.of_gone
  obtain ⟨ds, hpath, haccount⟩ := hstep.path hs hx
  obtain ⟨-, hnone⟩ := hpath.gone hx (haccount.untampered hu) hp
  have hdeed : ∀ {e : Deed σ}, e ∈ ds → e.key? = some k → False := fun he hk =>
    List.ne_nil_of_mem (mem_about he hk) hnone
  have htask : ∀ {task : Task ι}, task ∈ t.tasks → task.awaits k = true → False := by
    intro task ht ha
    obtain ⟨rest, hrest⟩ := Multiset.exists_cons_of_mem ht
    obtain ⟨slot, hs', -⟩ := hx.at_task hrest ha
    exact nomatch hs'.symm.trans hslot
  cases haccount with
  | @noRoom task _ _ ht =>
    cases task with
    | creating | introducing => trivial
    | fetching | settling => exact fun hk => (htask ht (decide_eq_true hk)).elim
  | got => exact fun hk => (hdeed (List.mem_append_right _ List.mem_cons_self) (congrArg _ hk)).elim
  | fallen hf =>
    intro hk
    cases hf with
    | lost =>
      exact (hdeed (e := .lost _) (List.mem_append_right _ (by simp)) (congrArg _ hk)).elim
    | spoiled => exact (hdeed List.mem_cons_self (congrArg _ hk)).elim
    | missed => exact (hdeed List.mem_cons_self (congrArg _ hk)).elim
    | failed hfs =>
      obtain rfl | rfl := hfs
      · exact (hdeed List.mem_cons_self (congrArg _ hk)).elim
      · exact (hdeed List.mem_cons_self (congrArg _ hk)).elim
  | absent => exact fun hk => .inl (by rw [hk])
  | busy hs' =>
    rintro rfl
    exact nomatch hs'.symm.trans hslot
  | vain hf =>
    rintro rfl
    obtain ⟨-, hne⟩ | ⟨e, rfl⟩ := hf
    · exact absurd hslot hne
    · exact .inr ⟨e, rfl⟩
  | peeked h =>
    rintro rfl
    obtain ⟨slot, hs', -⟩ | ⟨-, ⟨_, -, hne⟩ | ⟨rfl, -⟩ | ⟨e, rfl⟩⟩ := h
    · exact nomatch hs'.symm.trans hslot
    · exact absurd hr hne
    · exact .inl rfl
    · exact .inr ⟨e, rfl⟩
  | queried h =>
    rintro rfl
    obtain rfl | ⟨-, e, rfl⟩ := h
    · have hr' : t.scene.contents _ = none := hr
      have hlinked : t.scene.cache.isLinked _ = false := congrArg Option.isSome hslot
      rw [hlinked, hr']
      exact .inl rfl
    · exact .inr ⟨e, rfl⟩
  | quiet | tampered | created | unmade | returned | lostOut | left | removed | spoiled | nothing
  | refused => trivial
  | deferred hq =>
    obtain rfl | rfl := hq <;> trivial
  | @upkeep request =>
    cases request <;> trivial

/-- `Store.get key` does not fail. -/
def Store.Answers (store : Store) (key : Key) : Prop :=
  ∃ bytes?, (exec (Store.get key) store).1 = .ok bytes?

/-- `Op.remove` of a key with neither a slot nor a record counts a call of the backend and changes
nothing else; it answers `.ok` if the store `Answers`. -/
theorem Op.remove_of_none (hpatience : s.patience ≠ 0) {w : World σ ω}
    (hslot : w.cache.slot? k = none) (hu : w.cache.usage.find? k = none)
    (hr : w.store.contents k = none) :
    ∃ answer, exec (Op.remove s k) w = (answer,
        { w with
          store := w.store.called w.store.backend
          signals := w.signals + 1
          stays := w.stays + 1 }) ∧
      (answer = .ok () ∧ w.store.Answers k ∨ ∃ e, answer = .error (.store e) ∧ ¬w.store.Answers k) := by
  obtain ⟨looks, hlooks⟩ := Nat.exists_eq_succ_of_ne_zero hpatience
  have hunlink : (w.cache.link k (placeholder w)).unlink k = w.cache :=
    Cache.unlink_link hslot hu rfl
  rw [remove, hlooks, removeLooking, exec_bind_ok (exec_cache _), hslot]
  dsimp only
  rw [removePassivated, exec_bind_ok (exec_linkPlaceholder _ _), exec_bind_ok (exec_attempt _ _),
    exec_onStore]
  dsimp only
  rw [Store.exec_activate_of_none hr]
  unfold Store.Answers
  cases hget : (exec (Store.get k) w.store).1 with
  | ok bytes? =>
    dsimp only
    rw [exec_unlink]
    dsimp only
    rw [hunlink]
    exact ⟨_, rfl, .inl ⟨rfl, bytes?, rfl⟩⟩
  | error e =>
    dsimp only
    rw [abandon, exec_bind_ok (exec_unlink _ _), exec_throw]
    dsimp only
    rw [hunlink]
    exact ⟨_, rfl, .inr ⟨e, rfl, by simp⟩⟩

/-! ## A session that is to be removed -/

/-- A key that is `.out true` stays so until `.preDestroy` runs and it is removed. -/
theorem Hop.of_pending {p : Place σ} (h : Hop s x k (.out true) ds p) :
    p = .out true ∧ (∀ e ∈ ds, e = .deferred k) ∨
      p = .gone ∧ ∃ failed, ds = [.fired ⟨.preDestroy, k, failed⟩, .removed k] := by
  cases h with
  | still => exact .inl ⟨rfl, nofun⟩
  | defer => exact .inl ⟨rfl, by simp⟩
  | leaveOut => exact .inr ⟨rfl, _, rfl⟩

/-- What the deeds about `k` can be since `removePending` was set: none but `deferred` while it is
out, or `.preDestroy` and `removed` once it is gone. -/
def Awaited (k : Key) (p : Place σ) (ds : List (Deed σ)) : Prop :=
  p = .out true ∧ (∀ e ∈ ds, e = .deferred k) ∨
    p = .gone ∧ ∃ failed ds', (∀ e ∈ ds', e = .deferred k) ∧
      ds = ds' ++ [.fired ⟨.preDestroy, k, failed⟩, .removed k]

theorem Awaited.deeds {p : Place σ} (h : Awaited k p ds) {e : Deed σ} (he : e ∈ ds) :
    e = .deferred k ∨ (∃ failed, e = .fired ⟨.preDestroy, k, failed⟩) ∨ e = .removed k := by
  obtain ⟨-, hds⟩ | ⟨-, failed, ds', hds', rfl⟩ := h
  · exact .inl (hds e he)
  · obtain he | he := List.mem_append.mp he
    · exact .inl (hds' e he)
    · obtain rfl | rfl := List.mem_pair.mp he
      · exact .inr (.inl ⟨failed, rfl⟩)
      · exact .inr (.inr rfl)

theorem Path.awaited (hx : Sound s x) (h : Path s x ds x') (hu : .tampered ∉ ds)
    (hp : Lies x k (.out true)) : ∃ p, Lies x' k p ∧ Awaited k p (about k ds) := by
  refine h.follow hx hu hp (P := Awaited k) (.inl ⟨rfl, nofun⟩) ?_
  rintro y q q' ds ds' - - hhop (⟨rfl, hds⟩ | ⟨rfl, failed, ds₁, hds₁, rfl⟩)
  · obtain ⟨rfl, hds'⟩ | ⟨rfl, failed, rfl⟩ := hhop.of_pending
    · exact .inl ⟨rfl, fun e he => (List.mem_append.mp he).elim (hds e) (hds' e)⟩
    · exact .inr ⟨rfl, failed, ds, hds, rfl⟩
  · obtain ⟨rfl, rfl⟩ := hhop.of_gone
    exact .inr ⟨rfl, failed, ds₁, hds₁, List.append_nil _⟩

/-! ## A session that was removed -/

/-- After a path with a deed of `E`, each of which leaves its key `.gone`, `k` is `.gone`. -/
theorem Path.gone_after (hx : Sound s x) (h : Path s x ds x') (hu : .tampered ∉ ds) {p : Place σ}
    (hp : Lies x k p) {E : Deed σ → Prop} (hE : ∀ e, E e → e.key? = some k)
    (hhop : ∀ {y : Scene σ ι ω} {q q' : Place σ} {es : List (Deed σ)}, y.fault = x.fault →
      Hop s y k q es q' → (∃ e ∈ es, E e) → q' = .gone)
    (hd : ∃ e ∈ ds, E e) : Lies x' k .gone := by
  have hstep : ∀ {y : Scene σ ι ω} {q q' : Place σ} {es es' : List (Deed σ)}, y.fault = x.fault →
      Hop s y k q es' q' → ((∃ e ∈ es, E e) → q = .gone) → (∃ e ∈ es ++ es', E e) → q' = .gone := by
    intro y q q' es es' hfault hq hes hmem
    by_cases hes' : ∃ e ∈ es', E e
    · exact hhop hfault hq hes'
    · obtain ⟨e, he, hend⟩ := hmem
      obtain he | he := List.mem_append.mp he
      · obtain ⟨rfl, -⟩ := (hes ⟨e, he, hend⟩ ▸ hq).of_gone
        rfl
      · exact absurd ⟨e, he, hend⟩ hes'
  obtain ⟨p', hp', hgone⟩ := h.follow hx hu hp
    (P := fun q es => (∃ e ∈ es, E e) → q = .gone) (fun ⟨_, he, _⟩ => nomatch he)
    fun hfault _ hq hes => hstep hfault hq hes
  obtain ⟨e, he, hend⟩ := hd
  exact hgone ⟨e, mem_about he (hE e hend), hend⟩ ▸ hp'

/-- The deed that `remove` of `k` may have: `removed k`, or `spoiled k`. -/
def Deed.Leaves (k : Key) (e : Deed σ) : Prop := e = .removed k ∨ e = .spoiled k

theorem Hop.of_removed {p p' : Place σ} (h : Hop s x k p ds p') (hd : ∃ e ∈ ds, e.Leaves k) :
    p' = .gone := by
  have hfired : ∀ fs : List Firing, ¬∃ e ∈ (fs.map .fired : List (Deed σ)), e.Leaves k := by
    simp [Deed.Leaves]
  cases h with
  | leave | leaveOut | erase | spoil | lose | loseOut | unmade => rfl
  | attendStored | attendComing => exact absurd hd (hfired _)
  | _ => simp [Deed.Leaves] at hd

theorem Path.of_removed (hx : Sound s x) (h : Path s x ds x') (hu : .tampered ∉ ds) {p : Place σ}
    (hp : Lies x k p) (hd : ∃ e ∈ ds, e.Leaves k) : Lies x' k .gone :=
  h.gone_after hx hu hp (by rintro e (rfl | rfl) <;> rfl) (fun _ => Hop.of_removed) hd

/-- `key` is removed for good: in each run from here without `.tampered`, it has neither a slot nor
a record, each answer `Denies` it, and `remove key` answers `.ok` and only adds to `calls`,
`signals` and `stays`. -/
structure Traffic.Over (s : Surroundings σ ι ω) (t : Traffic σ ι ω) (key : Key) : Prop where
  gone : ∀ events t', Run s t events t' → Undisturbed events → t'.Gone key
  denied : ∀ events t' event t'', Run s t events t' → Undisturbed events →
    Step s t' event t'' → event ≠ .tampered → event.Denies key
  removed : ∀ events t', Run s t events t' → Undisturbed events → s.patience ≠ 0 →
    t'.world.store.Answers key →
    exec (Op.remove s key) t'.world = (.ok (),
      { t'.world with
        store := t'.world.store.called t'.world.store.backend
        signals := t'.world.signals + 1
        stays := t'.world.stays + 1 })

theorem Lies.over (hs : s.Discreet) (hx : Sound s t.scene) (hp : Lies t.scene k .gone) :
    t.Over s k := by
  have hlater : ∀ events t', Run s t events t' → Undisturbed events →
      Sound s t'.scene ∧ Lies t'.scene k .gone := by
    intro events t' h hu
    obtain ⟨ds, hpath, hds⟩ := h.path hs hx hu
    exact ⟨hpath.sound hx, (hpath.gone hx hds hp).1⟩
  refine ⟨fun events t' h hu => ?_, fun events t' event t'' h hu hstep he => ?_,
    fun events t' h hu hpatience hanswers => ?_⟩
  · exact (hlater events t' h hu).2.gone_of_gone
  · obtain ⟨hx', hp'⟩ := hlater events t' h hu
    exact hstep.denies hs hx' hp' he
  · obtain ⟨hx', hp'⟩ := hlater events t' h hu
    obtain ⟨hslot, hr, -⟩ := hp'.of_gone
    obtain ⟨answer, hexec, ⟨rfl, -⟩ | ⟨-, -, hno⟩⟩ :=
      Op.remove_of_none hpatience hslot (hx'.at_none hslot).1 hr
    · exact hexec
    · exact absurd hanswers hno

theorem Lies.pending (h : Lies t.scene k (.out true)) : t.Pending k := by
  cases h with
  | out hs ho hp => exact ⟨_, hs, ho.stage, hp⟩

theorem Traffic.Pending.lies (hx : Sound s t.scene) (ht : t.scene.Tidy) (h : t.Pending k) :
    Lies t.scene k (.out true) := by
  obtain ⟨slot, hs, hstage, hp⟩ := h
  have ho : slot.IsOut := hx.out_of_stage hs hstage
  obtain ⟨p, hlies⟩ := ht k
  obtain ⟨rfl, -⟩ := hlies.of_out hs ho
  exact hp ▸ hlies

/-- A key that `remove` named is `known`. -/
theorem Step.known_of_remove {r : Except CacheError (Response σ)}
    (h : Step s t (.answered (.remove k) r) t') : k ∈ t'.known := by
  generalize hevent : (Traffic.Event.answered (.remove k) r : Traffic.Event σ ι) = event at h
  cases h with
  | serve => cases hevent; exact .inr rfl
  | @fail task | @giveUp task => cases task <;> cases hevent
  | _ => cases hevent

/-! ## Removing, and giving back what is to be removed -/

theorem Task.request_ne (task : Task ι) {request : Request σ ι} (h : task.request = request) :
    (∃ args, request = .create args) ∨ ∃ key, request = .get key := by
  cases task with
  | creating args | introducing args => exact .inl ⟨args, h.symm⟩
  | fetching key | settling key => exact .inr ⟨key, h.symm⟩

/-- The deeds of an answer to `remove k`: it leaves, or is deferred because it is checked out, or
there is no session, or the answer is an error. -/
theorem Account.of_remove {answer : Except CacheError (Response σ)}
    (h : Account s x (.answered (.remove k) answer) ds) :
    ((∃ e ∈ ds, e.Leaves k) ∧
        ∀ slot, x.cache.slot? k = some slot → ¬slot.IsOut) ∨
      (∃ slot, x.cache.slot? k = some slot ∧ slot.IsOut ∧ ds = [.deferred k]) ∨
      (x.cache.slot? k = none ∧ x.contents k = none ∧ ds = []) ∨
      ∃ e, answer = .error e := by
  generalize hevent : (Traffic.Event.answered (.remove k) answer : Traffic.Event σ ι) = event at h
  cases h with
  | @noRoom task =>
    obtain ⟨hrequest, -⟩ := Traffic.Event.answered.inj hevent
    obtain ⟨args, h⟩ | ⟨key, h⟩ := task.request_ne hrequest.symm <;> cases h
  | deferred hq hs ho =>
    obtain rfl | rfl := hq <;> cases hevent
    exact .inr (.inl ⟨_, hs, ho, rfl⟩)
  | removed hout =>
    obtain ⟨hrequest, -⟩ := Traffic.Event.answered.inj hevent
    cases hrequest
    exact .inl ⟨⟨_, List.mem_cons_of_mem _ List.mem_cons_self, .inl rfl⟩, hout⟩
  | spoiled hs =>
    cases hevent
    exact .inl ⟨⟨_, List.mem_cons_self, .inr rfl⟩, fun slot hslot => nomatch hs.symm.trans hslot⟩
  | nothing hs hr => cases hevent; exact .inr (.inr (.inl ⟨hs, hr, rfl⟩))
  | refused => cases hevent; exact .inr (.inr (.inr ⟨_, rfl⟩))
  | upkeep hq => obtain ⟨rfl, -⟩ := Traffic.Event.answered.inj hevent; exact hq.elim
  | _ => cases hevent

/-- The deed of an answer to `removeOnFinish k`. -/
theorem Account.of_removeOnFinish {answer : Except CacheError (Response σ)}
    (h : Account s x (.answered (.removeOnFinish k) answer) ds) : ds = [.deferred k] := by
  generalize hevent : (Traffic.Event.answered (.removeOnFinish k) answer : Traffic.Event σ ι) =
    event at h
  cases h with
  | @noRoom task =>
    obtain ⟨hrequest, -⟩ := Traffic.Event.answered.inj hevent
    obtain ⟨args, h⟩ | ⟨key, h⟩ := task.request_ne hrequest.symm <;> cases h
  | deferred hq =>
    obtain rfl | rfl := hq <;> cases hevent
    rfl
  | upkeep hq => obtain ⟨rfl, -⟩ := Traffic.Event.answered.inj hevent; exact hq.elim
  | _ => cases hevent

/-- The deeds of an answer to `finish k`: it returned, was lost, or was removed because
`removePending` was set. -/
theorem Account.of_finish {state : σ} {answer : Except CacheError (Response σ)}
    (h : Account s x (.answered (.finish k state) answer) ds) :
    (∃ state', ds = [.fired ⟨.postInvoke, k, false⟩, .returned k state']) ∨
      ds = [.fired ⟨.postInvoke, k, true⟩, .lost k] ∨
      ∃ failed r, Op.Removed k failed r ∧ answer = r.map (fun _ => .done) ∧
        ds = [.fired ⟨.preDestroy, k, failed⟩, .removed k] := by
  generalize hevent : (Traffic.Event.answered (.finish k state) answer : Traffic.Event σ ι) =
    event at h
  cases h with
  | @noRoom task =>
    obtain ⟨hrequest, -⟩ := Traffic.Event.answered.inj hevent
    obtain ⟨args, h⟩ | ⟨key, h⟩ := task.request_ne hrequest.symm <;> cases h
  | returned => cases hevent; exact .inl ⟨_, rfl⟩
  | lostOut => cases hevent; exact .inr (.inl rfl)
  | left hr =>
    obtain ⟨hrequest, hanswer⟩ := Traffic.Event.answered.inj hevent
    cases hrequest
    exact .inr (.inr ⟨_, _, hr, hanswer, rfl⟩)
  | deferred hq => obtain rfl | rfl := hq <;> cases hevent
  | upkeep hq => obtain ⟨rfl, -⟩ := Traffic.Event.answered.inj hevent; exact hq.elim
  | _ => cases hevent

theorem Lies.of_nothing {p : Place σ} (h : Lies x k p) (hs : x.cache.slot? k = none)
    (hr : x.contents k = none) : p = .unmet ∨ p = .gone := by
  cases h with
  | unmet => exact .inl rfl
  | gone => exact .inr rfl
  | stored _ hr' => exact nomatch hr.symm.trans hr'
  | coming hs' | ready hs' | out hs' => exact nomatch hs.symm.trans hs'

/-- A path without deeds leaves a key with neither a slot nor a record `.gone`. -/
theorem Path.of_nothing (hx : Sound s x) (h : Path s x [] x') (hs : x.cache.slot? k = none)
    (hr : x.contents k = none) (ht : x.Tidy) (hk : k ∈ x'.known) : Lies x' k .gone := by
  obtain ⟨p, hp⟩ := ht k
  obtain ⟨p', hp', hP⟩ := h.follow hx (by simp) hp
    (P := fun q es => es = [] → q = .unmet ∨ q = .gone) (fun _ => hp.of_nothing hs hr)
    fun _ _ hhop hq hnil => by
      obtain ⟨hes, rfl⟩ := List.append_eq_nil_iff.mp hnil
      obtain rfl | rfl := hq hes
      · generalize hes' : ([] : List (Deed σ)) = es' at hhop
        cases hhop with
        | still => exact .inl rfl
        | meet => exact .inr rfl
        | enter => cases hes'
        | unmade => exact .inr rfl
      · exact .inr hhop.of_gone.1
  obtain rfl | rfl := hP rfl
  · cases hp' with
    | unmet _ _ hk' => exact absurd hk hk'
  · exact hp'

/-- After `.ok` from `remove` of a session that is not checked out, `key` is `Over`. -/
theorem Step.over_of_remove (hs : s.Discreet) (hx : Sound s t.scene) (ht : t.scene.Tidy)
    (hstep : Step s t (.answered (.remove k) (.ok .done)) t') (hout : ¬t.Out k) : t'.Over s k := by
  obtain ⟨ds, hpath, haccount⟩ := hstep.path hs hx
  have hu := haccount.untampered nofun
  obtain ⟨p, hp⟩ := ht k
  refine Lies.over hs (hpath.sound hx) ?_
  obtain ⟨hd, -⟩ | ⟨slot, hslot, ho, -⟩ | ⟨hslot, hr, hds⟩ | ⟨e, he⟩ := haccount.of_remove
  · exact hpath.of_removed hx hu hp hd
  · exact absurd ⟨slot, hslot, ho.stage⟩ hout
  · subst hds
    exact hpath.of_nothing hx hslot hr ht hstep.known_of_remove
  · exact nomatch he

/-- A path with the deed `deferred k` leaves a checked-out `k` with `removePending`. -/
theorem Path.of_deferred (hx : Sound s x) (h : Path s x [.deferred k] x') {pending : Bool}
    (hp : Lies x k (.out pending)) : Lies x' k (.out true) := by
  obtain ⟨p, hp', ⟨b, rfl, hb⟩ | ⟨e, he, hne⟩⟩ := h.follow hx (by simp) hp
    (P := fun q es => (∃ b, q = .out b ∧ (.deferred k ∈ es → b = true)) ∨
      ∃ e ∈ es, e ≠ .deferred k)
    (.inl ⟨pending, rfl, nofun⟩) fun _ _ hhop hq => by
      obtain ⟨b, rfl, hb⟩ | ⟨e, he, hne⟩ := hq
      · cases hhop with
        | still => exact .inl ⟨b, rfl, by simpa using hb⟩
        | defer => exact .inl ⟨true, rfl, fun _ => rfl⟩
        | giveIn | leaveOut | loseOut =>
          exact .inr ⟨_, List.mem_append_right _ List.mem_cons_self, nofun⟩
      · exact .inr ⟨e, List.mem_append_left _ he, hne⟩
  · exact hb (mem_about List.mem_cons_self rfl) ▸ hp'
  · exact absurd (List.mem_singleton.mp (List.mem_filter.mp he).1) hne

/-- After `.ok` from `remove` or `removeOnFinish` of a checked-out session, it is `Pending`. -/
theorem Step.pending_of_remove (hs : s.Discreet) (hx : Sound s t.scene) (ht : t.scene.Tidy)
    {request : Request σ ι} (hq : request = .remove k ∨ request = .removeOnFinish k)
    (hstep : Step s t (.answered request (.ok .done)) t') (hout : t.Out k) : t'.Pending k := by
  obtain ⟨ds, hpath, haccount⟩ := hstep.path hs hx
  have hu := haccount.untampered nofun
  obtain ⟨slot, hslot, hstage⟩ := hout
  have ho : slot.IsOut := hx.out_of_stage hslot hstage
  obtain ⟨p, hp⟩ := ht k
  obtain ⟨rfl, -⟩ := hp.of_out hslot ho
  obtain rfl : ds = [.deferred k] := by
    obtain rfl | rfl := hq
    · obtain ⟨-, hno⟩ | ⟨_, -, -, hds⟩ | ⟨hnone, -⟩ | ⟨e, he⟩ := haccount.of_remove
      · exact absurd ho (hno slot hslot)
      · exact hds
      · exact nomatch hnone.symm.trans hslot
      · exact nomatch he
    · exact haccount.of_removeOnFinish
  exact (hpath.of_deferred hx hp).pending

/-- A path adds the firings of the deeds about `k` to what `log` has of `k`. -/
theorem Path.heard {log : ω → List Firing} (hlog : s.Logs log) (h : Path s t.scene ds t'.scene)
    (k : Key) : t'.heard log k = t.heard log k ++ firings (about k ds) := by
  have houtside : log t'.world.outside = log t.world.outside ++ firings ds := h.log hlog
  rw [Traffic.heard, houtside, List.filter_append, firings_about]
  rfl

/-- What `finish` of a session with `removePending` leads to. -/
structure Traffic.Applied (s : Surroundings σ ι ω) (t t' : Traffic σ ι ω) (key : Key)
    (answer : Except CacheError (Response σ)) : Prop where
  ended : t'.Over s key
  removed : t'.world.cache.counters.removed = t.world.cache.counters.removed + 1
  /-- `.preDestroy` ran for `key` and no other callback, and the answer says whether it failed. -/
  answer : ∃ failed, (∀ log, s.Logs log →
      t'.heard log key = t.heard log key ++ [⟨.preDestroy, key, failed⟩]) ∧
    match failed with
    | false => answer = .ok .done
    | true => ∃ message, answer = .error (.lifecycle key .preDestroy message)

theorem Step.applied (hs : s.Discreet) (hx : Sound s t.scene) (ht : t.scene.Tidy)
    (hpending : t.Pending k) {state : σ} {answer : Except CacheError (Response σ)}
    (hstep : Step s t (.answered (.finish k state) answer) t') : t.Applied s t' k answer := by
  obtain ⟨ds, hpath, haccount⟩ := hstep.path hs hx
  have hu := haccount.untampered nofun
  obtain ⟨p, hp, hawaited⟩ := hpath.awaited hx hu (hpending.lies hx ht)
  have hpost : ∀ failed, (.fired ⟨.postInvoke, k, failed⟩ : Deed σ) ∉ ds := by
    intro failed hmem
    obtain h | ⟨_, h⟩ | h := hawaited.deeds (mem_about hmem rfl) <;> cases h
  obtain ⟨state', rfl⟩ | rfl | ⟨failed, r, hr, rfl, rfl⟩ := haccount.of_finish
  · exact absurd List.mem_cons_self (hpost false)
  · exact absurd List.mem_cons_self (hpost true)
  · have hgone := hpath.of_removed hx hu (hpending.lies hx ht)
      ⟨_, List.mem_cons_of_mem _ List.mem_cons_self, .inl rfl⟩
    refine ⟨hgone.over hs (hpath.sound hx), hpath.removed, failed, fun log hlog => ?_, ?_⟩
    · rw [hpath.heard hlog, about_self (by simp [Deed.key?])]
      rfl
    · cases failed with
      | false => exact congrArg (Except.map _) hr
      | true =>
        obtain ⟨message, rfl⟩ := hr
        exact ⟨message, rfl⟩

/-- From `Pending`, a run stays `Pending` without callbacks for `key`, or `key` is `Over`, and
`.preDestroy` is all that ran for it. -/
theorem Run.awaited (hs : s.Discreet) (hx : Sound s t.scene) (ht : t.scene.Tidy)
    (hpending : t.Pending k) (h : Run s t events t') (hu : Undisturbed events) :
    t'.Pending k ∧ (∀ log, s.Logs log → t'.heard log k = t.heard log k) ∨
      t'.Over s k ∧ ∃ failed, ∀ log, s.Logs log →
        t'.heard log k = t.heard log k ++ [⟨.preDestroy, k, failed⟩] := by
  have hdeferred : ∀ ds : List (Deed σ), (∀ e ∈ ds, e = .deferred k) → firings ds = [] :=
    fun ds hds => List.filterMap_eq_nil_iff.mpr fun e he => by rw [hds e he]; rfl
  obtain ⟨ds, hpath, hds⟩ := h.path hs hx hu
  obtain ⟨p, hp, ⟨rfl, habout⟩ | ⟨rfl, failed, ds', hds', habout⟩⟩ :=
    hpath.awaited hx hds (hpending.lies hx ht)
  · refine .inl ⟨hp.pending, fun log hlog => ?_⟩
    rw [hpath.heard hlog, hdeferred _ habout, List.append_nil]
  · refine .inr ⟨hp.over hs (hpath.sound hx), failed, fun log hlog => ?_⟩
    rw [hpath.heard hlog, habout, firings_append, hdeferred _ hds']
    rfl

/-- In each reachable state, whatever callbacks and the backend do: after `.ok` from `remove key`,
`key` is `Over` at once if it was not checked out; if it was, it is `Pending`, stays so until
`finish`, and is then removed exactly once with `.preDestroy` (`Applied`). -/
theorem Run.removal (hs : s.Discreet) (ht : t.Fresh s) (h : Run s t events t')
    (hu : Undisturbed events) (key : Key) :
    (∀ t'', Step s t' (.answered (.remove key) (.ok .done)) t'' → ¬t'.Out key → t''.Over s key) ∧
      (∀ request t'', request = .remove key ∨ request = .removeOnFinish key →
        Step s t' (.answered request (.ok .done)) t'' → t'.Out key → t''.Pending key) ∧
      (t'.Pending key →
        (∀ state answer t'', Step s t' (.answered (.finish key state) answer) t'' →
          t'.Applied s t'' key answer) ∧
        ∀ later t'', Run s t' later t'' → Undisturbed later →
          (∀ slot, t''.world.cache.slot? key = some slot → slot.stage ≠ .ready) ∧
            (t''.Pending key ∧ (∀ log, s.Logs log → t''.heard log key = t'.heard log key) ∨
              t''.Over s key ∧ ∃ failed, ∀ log, s.Logs log →
                t''.heard log key = t'.heard log key ++ [⟨.preDestroy, key, failed⟩])) := by
  have hx := h.sound hs ht
  have htidy := h.tidy hs ht hu
  refine ⟨fun t'' hstep hout => hstep.over_of_remove hs hx htidy hout,
    fun request t'' hq hstep hout => hstep.pending_of_remove hs hx htidy hq hout,
    fun hpending => ⟨fun state answer t'' hstep => hstep.applied hs hx htidy hpending,
      fun later t'' hlater hu' => ?_⟩⟩
  have hcases := hlater.awaited hs hx htidy hpending hu'
  refine ⟨fun slot hslot => ?_, hcases⟩
  obtain ⟨⟨slot', hslot', hstage, -⟩, -⟩ | ⟨hover, -⟩ := hcases
  · obtain rfl := Option.some.inj (hslot'.symm.trans hslot)
    exact hstage.trans_ne nofun
  · have hgone := (hover.gone [] t'' .nil (by simp [Undisturbed])).1
    exact absurd (Option.isSome_iff_exists.mpr ⟨slot, hslot⟩) hgone

/-- `remove` of a checked-out session, then `finish`: it is `Applied`. -/
theorem Run.removal_of_pending :
    ∃ events t' t'', Run (.small fun _ _ => false)
        (.small (fun _ _ => false) fun _ _ => none) events t' ∧
      t'.Pending (.ofNat 0) ∧
      Step (.small fun _ _ => false) t' (.answered (.finish (.ofNat 0) true) (.ok .done)) t'' ∧
      t'.Applied (.small fun _ _ => false) t'' (.ofNat 0) (.ok .done) := by
  have h₁ := (Run.nil (s := .small fun _ _ => false)
    (t := .small (fun _ _ => false) fun _ _ => none)).thenCreate true (by decide) (fun hk => hk rfl)
  have h₂ := h₁.thenGet (.ofNat 0) rfl
  have h₃ := h₂.thenServe (.removeOnFinish (.ofNat 0)) ⟨true, Multiset.mem_cons_self _ 0⟩
  obtain ⟨-, -, hfinish⟩ := Run.removal Surroundings.recording_discreet
    (Traffic.opened_fresh _ _ _ _) h₃ (by simp [Undisturbed]) (.ofNat 0)
  have happlied := (hfinish ⟨_, rfl, rfl, rfl⟩).1 true _ _ (.givenBack 0 rfl)
  exact ⟨_, _, _, h₃, ⟨_, rfl, rfl, rfl⟩, .givenBack 0 rfl, happlied⟩

end SessionCache
