import SessionCache.Proofs.Removal
import SessionCache.Proofs.Traffic.Procession

/-!
# The callbacks of a session

`Life` is an automaton whose states say which callbacks have run for a session, and `Life.next?`
which callbacks may run next. As long as callbacks succeed, the store fails at nothing but writing,
what is written of a state can be read, and records are neither touched by others nor get too old, the
callbacks of every key follow it, and where they have got to is where the session is.

* `Life.Fits`: the states of the automaton and the places of a session that go together.
* `Scene.Lively`: the callbacks of a key so far are a path of the automaton, to where the key is.
* `Run.automaton`: so it is at every point of a run.
* `Run.automaton_lost`: and not if a session nests deeper than `Envelope.decode` reads.
-/

namespace SessionCache

variable {σ ι ω α : Type} {s : Surroundings σ ι ω} {x x' : Scene σ ι ω} {ds : List (Deed σ)}
  {key k : Key} {log : ω → List Firing} {w w' : World σ ω} {d : Desk σ ι}
  {t t' : Traffic σ ι ω} {event : Traffic.Event σ ι} {events : List (Traffic.Event σ ι)}

/-! ## The automaton -/

/-- How far the callbacks of a session have got. It changes with each phase that is fired. -/
inductive Life where
  /-- No callback has run. -/
  | unborn
  /-- `.postConstruct` or `.postInvoke` was the last phase, or `.postActivate` after
  `.prePassivate`. -/
  | ready
  /-- `.preInvoke` was the last phase. -/
  | inUse
  /-- `.prePassivate` was the last phase. -/
  | leaving
  /-- `.postPassivate` was the last phase. -/
  | stored
  /-- `.preActivate` was the last phase. -/
  | coming
  /-- `.postActivate` was the last phase, after `.preActivate`. -/
  | arrived
  /-- `.preDestroy` was the last phase. -/
  | over
  deriving DecidableEq, Repr

namespace Life

/-- Where the callbacks of `phase` lead from here; `none` if that phase may not come next. -/
def next? : Life → Phase → Option Life
  | .unborn, .postConstruct => some .ready
  | .ready, .preInvoke => some .inUse
  | .inUse, .postInvoke => some .ready
  | .ready, .prePassivate => some .leaving
  | .leaving, .postPassivate => some .stored
  | .leaving, .postActivate => some .ready
  | .stored, .preActivate => some .coming
  | .coming, .postActivate => some .arrived
  | .arrived, .preInvoke => some .inUse
  | .ready, .preDestroy => some .over
  | .inUse, .preDestroy => some .over
  | .stored, .preDestroy => some .over
  | _, _ => none

/-- Where the phases lead, in order. -/
def follow? (life : Life) (phases : List Phase) : Option Life := phases.foldlM next? life

/-- After `.preDestroy` no phase may come. -/
theorem next?_over (phase : Phase) : Life.over.next? phase = none := by cases phase <;> rfl

theorem follow?_append {life life' : Life} {phases : List Phase} (h : life.follow? phases = some life')
    (later : List Phase) : life.follow? (phases ++ later) = life'.follow? later := by
  rw [follow?, List.foldlM_append]
  exact congrArg (· >>= fun life => later.foldlM next? life) h

/-- So a sequence that gets to `.over` ends there. -/
theorem eq_nil_of_over {life : Life} {phases later : List Phase}
    (hover : life.follow? phases = some .over) (h : life.follow? (phases ++ later) ≠ none) :
    later = [] := by
  rw [follow?_append hover] at h
  cases later with
  | nil => rfl
  | cons phase rest =>
    rw [follow?, List.foldlM_cons, next?_over] at h
    exact absurd rfl h

/-- Where the callbacks of a key start: with a record from before, it is `.stored`. -/
def ofRecord : Option ByteArray → Life
  | some _ => .stored
  | none => .unborn

/-- Which point of the automaton goes with which place of the key. -/
inductive Fits : Life → Place σ → Prop where
  | unmet : Fits .unborn .unmet
  | unborn : Fits .unborn .gone
  | over : Fits .over .gone
  | stored (bytes : ByteArray) : Fits .stored (.stored bytes)
  | coming (bytes : ByteArray) : Fits .stored (.coming (some bytes))
  | ready (state : σ) : Fits .ready (.ready state)
  | out (pending : Bool) : Fits .inUse (.out pending)

end Life

/-! ## Smooth runs -/

/-- No callback touches the cache or fails, what `codec` encodes can be decoded from the record
(`readable`, `shallow`), and there is no `removalTimeout`. -/
structure Surroundings.Smooth (s : Surroundings σ ι ω) : Prop where
  discreet : s.Discreet
  succeeds : ∀ f o o', s.Fires f o o' → f.failed = false
  readable : s.codec.Readable
  /-- No state nests deeper than `Envelope.decode` reads: `Store.passivate` writes such a state all the
  same, and the next `get` loses it. -/
  shallow : s.codec.Shallow
  lasting : s.settings.removalTimeout = none

theorem Surroundings.Story.succeeds (hs : s.Smooth) {fs : List Firing} {o o' : ω}
    (h : s.Story fs o o') : ∀ f ∈ fs, f.failed = false := by
  induction h with
  | nil => simp
  | fire hf _ ih =>
    intro f hmem
    obtain rfl | hmem := List.mem_cons.mp hmem
    · exact hs.succeeds _ _ _ hf
    · exact ih f hmem
  | prepare _ _ ih => exact ih

theorem mem_firings {f : Firing} (h : .fired f ∈ ds) : f ∈ firings ds :=
  List.mem_filterMap.mpr ⟨_, h, rfl⟩

/-- No firing along a path failed. -/
theorem Path.succeeds (hs : s.Smooth) (h : Path s x ds x') {f : Firing} (hf : .fired f ∈ ds) :
    f.failed = false := h.story.succeeds hs f (mem_firings hf)

/-- No path has a deed `lost`. -/
theorem Path.not_lost (hs : s.Smooth) (fs : List Firing) {phase : Phase}
    (h : Path s x (fs.map .fired ++ [.fired ⟨phase, key, true⟩, .lost key]) x') : False :=
  nomatch h.succeeds hs (List.mem_append_right _ List.mem_cons_self)

/-- The record of `k` decodes, if its place says that there is one; a key that is `.coming` has a
record. -/
def Place.Readable (codec : Codec σ) (k : Key) : Place σ → Prop
  | .stored bytes | .coming (some bytes) => ∃ state, Store.stateOf codec k bytes = .ok state
  | .coming none => False
  | _ => True

theorem Scene.Drops.readable {bytes? bytes?' : Option ByteArray} (h : x.Drops k bytes? bytes?')
    (hr : (Place.ofRecord bytes? : Place σ).Readable s.codec k) :
    (Place.ofRecord bytes?' : Place σ).Readable s.codec k := by
  obtain rfl | ⟨rfl, -⟩ := h
  · trivial
  · exact hr

/-- A hop of a key with a readable record keeps it readable. If no callbacks run for the key, the
automaton `Fits` its next place as well. -/
theorem Hop.readable (hs : s.Smooth) {p p' : Place σ} (h : Hop s x k p ds p') (hnow : .earliest ≤ x.now)
    (hnow' : x.now ≤ .latest) (hp : p.Readable s.codec k) :
    p'.Readable s.codec k ∧ .spoiled k ∉ ds ∧
      (firings ds = [] → ∀ life : Life, life.Fits p → life.Fits p') := by
  have hfired : ∀ fs : List Firing, (.spoiled k : Deed σ) ∉ (fs.map .fired : List (Deed σ)) := by
    intro fs hmem
    obtain ⟨f, -, hf⟩ := List.mem_map.mp hmem
    exact nomatch hf
  cases h with
  | still | attendStored | attendComing => exact ⟨hp, by simp [hfired], fun _ _ => id⟩
  | meet => exact ⟨trivial, by simp, fun _ _ hf => by cases hf; exact .unborn⟩
  | purge ht | purgeComing ht => exact absurd hs.lasting ht
  | announce => exact ⟨hp, by simp, fun _ _ hf => by cases hf; exact .coming _⟩
  | @withdraw bytes? =>
    cases bytes? with
    | none => exact hp.elim
    | some bytes => exact ⟨hp, by simp, fun _ _ hf => by cases hf; exact .stored _⟩
  | @loseComing _ bytes? _ hd =>
    cases bytes? with
    | none => exact hp.elim
    | some bytes => exact ⟨hd.readable hp, by simp, nofun⟩
  | loseParked hd => exact ⟨hd.readable hp, by simp, nofun⟩
  | unmade hf =>
    obtain rfl | rfl := hf
    · exact ⟨trivial, by simp, fun _ _ hf => by cases hf; exact .unborn⟩
    · exact ⟨trivial, by simp, nofun⟩
  | park _ hv =>
    obtain ⟨state, hreads⟩ := hs.readable _ _ hv
    exact ⟨⟨state, Store.stateOf_encode hnow hnow' hreads (hs.shallow _ _ hv)⟩, by simp, nofun⟩
  | lose =>
    refine ⟨trivial, by simp, fun hnone => ?_⟩
    rw [firings_fired_append] at hnone
    exact nomatch (List.append_eq_nil_iff.mp hnone).2
  | defer => exact ⟨trivial, by simp, fun _ _ hf => by cases hf; exact .out _⟩
  | spoil hb =>
    obtain ⟨state, hok⟩ := hp
    exact nomatch hok.symm.trans hb
  | settle | enter | checkOut | stay | leave | giveIn | leaveOut | loseOut | erase =>
    exact ⟨trivial, by simp, nofun⟩

/-! ## Lively scenes -/

/-- The firings of `k` in `log` after `before` lead from `start` to a point that `Fits` the place of
`k`, whose record decodes. -/
structure Scene.Lively (s : Surroundings σ ι ω) (log : ω → List Firing) (k : Key)
    (before : List Firing) (start : Life) (x : Scene σ ι ω) : Prop where
  sound : Sound s x
  now : .earliest ≤ x.now ∧ x.now ≤ .latest
  path : ∃ (p : Place σ) (fs : List Firing) (life : Life), Lies x k p ∧ p.Readable s.codec k ∧
    (log x.outside).filter (·.key = k) = before ++ fs ∧
    start.follow? (fs.map (·.phase)) = some life ∧ life.Fits p

variable {before : List Firing} {start : Life}

/-- A path keeps `Lively` if the firings for `k` lead on to a point that `Fits` its next place. -/
theorem Path.lively (hs : s.Smooth) (hlog : s.Logs log) (h : Path s x ds x') (hu : .tampered ∉ ds)
    (hx : x.Lively s log k before start)
    (hnext : ∀ (p p' : Place σ) (life : Life), Lies x k p → Lies x' k p' → p'.Readable s.codec k →
      .spoiled k ∉ ds → p.Readable s.codec k → life.Fits p → firings (about k ds) ≠ [] →
      ∃ life', life.follow? ((firings (about k ds)).map (·.phase)) = some life' ∧ life'.Fits p') :
    x'.Lively s log k before start := by
  obtain ⟨p, fs, life, hp, hreadable, hfs, hlife, hfits⟩ := hx.path
  obtain ⟨⟨hpass, hlate⟩, -⟩ := h.surroundings
  -- What the hops of the key leave of its record, and of where its callbacks have got to.
  obtain ⟨p', hp', hreadable', hspoiled, hquiet⟩ := h.follow hx.sound hu hp
    (P := fun q es => q.Readable s.codec k ∧ .spoiled k ∉ es ∧
      (firings es = [] → ∀ life : Life, life.Fits p → life.Fits q))
    ⟨hreadable, by simp, fun _ _ => id⟩
    fun {y q q' es es'} _ hpasses hhop ⟨hq, hes, hstill⟩ => by
      obtain ⟨hq', hes', hstill'⟩ := hhop.readable hs (Int.le_trans hx.now.1 hpasses.1)
        (hpasses.2 hx.now.2) hq
      refine ⟨hq', by simp [hes, hes'], fun hnone life hlife => ?_⟩
      rw [firings_append] at hnone
      obtain ⟨h₁, h₂⟩ := List.append_eq_nil_iff.mp hnone
      exact hstill' h₂ life (hstill h₁ life hlife)
  have hnot : (.spoiled k : Deed σ) ∉ ds := fun hmem => hspoiled (mem_about hmem rfl)
  obtain ⟨life', hlife', hfits'⟩ : ∃ life',
      life.follow? ((firings (about k ds)).map (·.phase)) = some life' ∧ life'.Fits p' := by
    by_cases hnone : firings (about k ds) = []
    · exact ⟨life, by rw [hnone]; rfl, hquiet hnone life hfits⟩
    · exact hnext p p' life hp hp' hreadable' hnot hreadable hfits hnone
  refine ⟨h.sound hx.sound, ⟨Int.le_trans hx.now.1 hpass, hlate hx.now.2⟩, p',
    fs ++ firings (about k ds), life', hp', hreadable', ?_, ?_, hfits'⟩
  · rw [h.log hlog, List.filter_append, hfs, firings_about, List.append_assoc]
  · rw [List.map_append, Life.follow?_append hlife, hlife']

/-- A path without deeds keeps `Lively`. -/
theorem Path.lively_still (hs : s.Smooth) (hlog : s.Logs log) (h : Path s x [] x')
    (hx : x.Lively s log k before start) : x'.Lively s log k before start :=
  h.lively hs hlog (by simp) hx fun _ _ _ _ _ _ _ _ _ hne => absurd rfl hne

/-- A path whose deeds are all about `key` keeps `Lively` if their firings lead on. -/
theorem Path.lively_of_key (key : Key) (hs : s.Smooth) (hlog : s.Logs log) (h : Path s x ds x')
    (hx : x.Lively s log k before start) (hkey : ∀ e ∈ ds, e.key? = some key)
    (hnext : ∀ (p p' : Place σ) (life : Life), Lies x key p → Lies x' key p' →
      p'.Readable s.codec key → .spoiled key ∉ ds → p.Readable s.codec key → life.Fits p →
      ∃ life', life.follow? ((firings ds).map (·.phase)) = some life' ∧ life'.Fits p') :
    x'.Lively s log k before start := by
  have hu : (.tampered : Deed σ) ∉ ds := fun hmem => nomatch hkey _ hmem
  refine h.lively hs hlog hu hx fun p p' life hp hp' hr' hspoiled hr hfits hne => ?_
  by_cases hk : key = k
  · subst hk
    rw [about_self hkey]
    exact hnext p p' life hp hp' hr' hspoiled hr hfits
  · rw [about_other hkey hk] at hne
    exact absurd rfl hne

/-! ## Operations -/

section

variable {slot : Slot σ} {state : σ}

open Op

/-- `Op.passivate` of a ready session keeps `Lively`. -/
theorem Op.Parted.lively (hs : s.Smooth) (hlog : s.Logs log) {r : Except CacheError Unit}
    (h : Parted s key x r ds x') (hslot : x.cache.slot? key = some slot) (hr : slot.IsReady state)
    (hx : x.Lively s log k before start) : x'.Lively s log k before start := by
  cases h with
  | stored h hnone hrecord =>
    refine h.lively_of_key key hs hlog hx (by simp [Deed.key?]) fun p p' life hp hp' _ _ _ hfits => ?_
    obtain ⟨rfl, -⟩ := hp.of_ready hslot hr
    obtain ⟨bytes, hbytes⟩ := Option.ne_none_iff_exists'.mp hrecord
    obtain ⟨rfl, -⟩ := hp'.of_record hnone hbytes
    cases hfits
    exact ⟨.stored, rfl, .stored bytes⟩
  | kept h hslot' hr' =>
    refine h.lively_of_key key hs hlog hx (by simp [Deed.key?]) fun p p' life hp hp' _ _ _ hfits => ?_
    obtain ⟨rfl, -⟩ := hp.of_ready hslot hr
    obtain ⟨rfl, -⟩ := hp'.of_ready hslot' hr'
    cases hfits
    exact ⟨.ready, rfl, .ready _⟩
  | lost fs _ h => exact (h.not_lost hs fs).elim

theorem exec_passivate_lively (hs : s.Smooth) (hlog : s.Logs log)
    (hslot : w.cache.slot? key = some slot) (hr : slot.IsReady state) {r : Except CacheError Unit}
    (h : exec (passivate s key) w = (r, w')) (hx : (w.scene d).Lively s log k before start) :
    (w'.scene d).Lively s log k before start := by
  obtain ⟨ds, hparted⟩ := exec_passivate (d := d) hs.discreet hslot hr h
  exact hparted.lively hs hlog hslot hr hx

/-- `Lifecycle.fire` succeeds, leaves the store alone, and turns the state as `Turns` says. -/
theorem exec_fire_smooth (hs : s.Smooth) {phase : Phase} {state? : Option σ}
    {r : Except CacheError (Option σ)}
    (h : exec (s.lifecycle.fire phase key state?) w = (r, w')) :
    w'.store = w.store ∧ ∃ after, r = .ok after ∧
      ∀ state, state? = some state → s.Turns phase key state (after.getD state) := by
  obtain ⟨haside, ⟨message, -, hfires⟩ | ⟨after, rfl, -, hturns⟩⟩ := exec_fire hs.discreet h
  · exact nomatch hs.succeeds _ _ _ hfires
  · exact ⟨haside.store, after, rfl, hturns⟩

/-- The answer of `Op.passivate` of a ready session is that of `Store.passivate`. -/
theorem exec_passivate_answer (hs : s.Smooth) (hslot : w.cache.slot? key = some slot)
    (hr : slot.IsReady state) {r : Except CacheError Unit}
    (h : exec (passivate s key) w = (r, w')) :
    ∃ state' now, s.Turns .prePassivate key state state' ∧
      r = (exec (Store.passivate s.codec now key state') w.store).1 := by
  obtain ⟨r₁, w₁, hpre, h⟩ := exec_passivate_ready hslot hr h
  obtain ⟨hstore, after, rfl, hturns⟩ := exec_fire_smooth hs hpre
  refine ⟨_, w₁.now, hturns state rfl, ?_⟩
  obtain ⟨r₂, w₂, hput, h⟩ := h
  rw [exec_onStore, hstore] at hput
  obtain ⟨rfl, rfl⟩ := Prod.mk.inj hput
  generalize hanswer : exec (Store.passivate s.codec w₁.now key (after.getD state)) w.store = answer
    at h ⊢
  obtain ⟨failure | _, store⟩ := answer
  · dsimp only at h
    rw [takeBack, exec_bind_ok (exec_modifyCounters _ _)] at h
    obtain ⟨r₃, w₃, hpost, h⟩ := exec_attempt_bind h
    obtain ⟨-, after', rfl, -⟩ := exec_fire_smooth hs hpost
    cases h
    rfl
  · dsimp only at h
    rw [moveOut, exec_bind_ok (exec_unlink _ _), exec_bind_ok (exec_modifyCounters _ _)] at h
    obtain ⟨r₃, w₃, hpost, h⟩ := exec_attempt_bind h
    obtain ⟨-, after', rfl, -⟩ := exec_fire_smooth hs hpost
    cases h
    rfl

theorem Op.Parade.lively (hs : s.Smooth) (hlog : s.Logs log) (h : Parade s w w')
    (hx : (w.scene d).Lively s log k before start) : (w'.scene d).Lively s log k before start :=
  h.keeps (P := fun w => (w.scene d).Lively s log k before start)
    (fun {_ _ _ _ _ _} hslot hr hp hw => exec_passivate_lively hs hlog hslot hr hp hw) hx

theorem exec_look_lively (hs : s.Smooth) (hlog : s.Logs log) {deadline : Deadline}
    {r : Except CacheError Look} (h : exec (look s deadline) w = (r, w')) (hr : r ≠ .ok .taken)
    (hx : (w.scene d).Lively s log k before start) : (w'.scene d).Lively s log k before start := by
  obtain ⟨-, rfl, -⟩ | ⟨-, victim, answer, hvictim, hp, -⟩ | ⟨-, -, rfl, -⟩ := exec_look_cases h
  · exact absurd rfl hr
  · obtain ⟨slot, state, hslot, hready⟩ := ready_of_victim? hx.sound hvictim
    exact exec_passivate_lively hs hlog hslot hready hp hx
  · exact hx

/-- Without `removalTimeout`, `Op.expirePassivated` changes nothing. -/
theorem expirePassivated_of_lasting (hs : s.Smooth) {r : Except CacheError Nat}
    (h : exec (expirePassivated s) w = (r, w')) : w' = w := by
  rw [expirePassivated, hs.lasting] at h
  cases h
  rfl

theorem exec_introduce_lively (hs : s.Smooth) (hlog : s.Logs log) {args : ι}
    {rest : Multiset (Task ι)} (ht : d.tasks = .introducing args ::ₘ rest)
    (hk : (s.freshKey.run w).1 ∉ d.known) {r : Except CacheError Key}
    (h : exec (introduce s args) w = (r, w')) (hx : (w.scene d).Lively s log k before start) :
    (w'.scene { d with tasks := rest, known := insert (s.freshKey.run w).1 d.known }).Lively
      s log k before start := by
  obtain ⟨_, state, slot, -, -, -, hready, -, hcache, hpath⟩ | ⟨message, fs, -, hfs, -, hpath⟩ :=
    exec_introduce hs.discreet ht hk h
  · refine hpath.lively_of_key (s.freshKey.run w).1 hs hlog hx (by simp [Deed.key?])
      fun p p' life hp hp' _ _ _ hfits => ?_
    obtain ⟨rfl, -⟩ := hp.of_unknown hx.sound hk
    have hslot : w'.cache.slot? (s.freshKey.run w).1 = some slot := by
      rw [hcache]
      exact Cache.link_self _ _ _
    obtain ⟨rfl, -⟩ := hp'.of_ready hslot hready
    cases hfits
    exact ⟨.ready, rfl, .ready _⟩
  · obtain rfl | rfl := hfs
    · refine hpath.lively hs hlog (by simp) hx fun _ _ _ _ _ _ _ _ _ hne => ?_
      rw [firings_about] at hne
      exact absurd rfl hne
    · exact absurd (hpath.succeeds hs List.mem_cons_self).symm Bool.false_ne_true

/-- `Op.settle` and `Op.checkOut` keep `Lively`. -/
theorem exec_settle_lively (hs : s.Smooth) (hlog : s.Logs log) (hserves : w.store.Serves)
    {rest : Multiset (Task ι)} (ht : d.tasks = .settling key ::ₘ rest) {r : Except CacheError σ}
    (h : exec (do settle s key; checkOut s key) w = (r, w'))
    (hx : (w.scene d).Lively s log k before start) :
    (({ d with tasks := rest, world := w' } : Traffic σ ι ω).handed key r).scene.Lively
      s log k before start := by
  obtain ⟨slot, hslot, hp, -⟩ := hx.sound.at_task ht (decide_eq_true rfl)
  have hsteady : Steady (do settle s key; checkOut s key) :=
    .bind (.settle hs.discreet) fun _ => .checkOut hs.discreet
  obtain ⟨state, rfl, ⟨slot', hslot', ho⟩, hpath⟩ | ⟨failure, ds, rfl, hnone, hfallen, hpath⟩ :=
    exec_settle_checkOut hs.discreet ht hslot hp h
  · refine hpath.lively_of_key key hs hlog hx (by simp [Deed.key?])
      fun p p' life hp₀ hp' _ _ _ hfits => ?_
    obtain rfl := hp₀.of_placeholder hslot hp
    obtain ⟨rfl, -⟩ := hp'.of_out hslot' ho
    generalize (w.scene d).contents key = bytes? at hfits
    cases hfits
    exact ⟨.inUse, rfl, .out _⟩
  · cases hfallen with
    | lost fs => exact (hpath.not_lost hs fs).elim
    | spoiled =>
      refine hpath.lively_of_key key hs hlog hx (by simp [Deed.key?])
        fun _ _ _ _ _ _ hspoiled => ?_
      exact absurd (by simp) hspoiled
    | missed hr =>
      refine hpath.lively_of_key key hs hlog hx (by simp [Deed.key?])
        fun p _ _ hp₀ _ _ _ hreadable => ?_
      obtain rfl := hp₀.of_placeholder hslot hp
      rw [hr] at hreadable
      exact hreadable.elim
    | failed => exact absurd rfl (hsteady.at_store hserves h _)

/-- A removal with `.preDestroy` keeps `Lively`. -/
theorem Path.lively_of_removed (hs : s.Smooth) (hlog : s.Logs log) {failed : Bool}
    (h : Path s x [.fired ⟨.preDestroy, key, failed⟩, .removed key] x')
    (hx : x.Lively s log k before start)
    (hnext : ∀ (p : Place σ) (life : Life), Lies x key p → life.Fits p →
      life.next? .preDestroy = some .over) : x'.Lively s log k before start := by
  refine h.lively_of_key key hs hlog hx (by simp [Deed.key?]) fun p p' life hp hp' _ _ _ hfits => ?_
  obtain rfl : p' = .gone := hp'.place_inj (h.of_removed hx.sound (by simp) hp
    ⟨_, List.mem_cons_of_mem _ List.mem_cons_self, .inl rfl⟩)
  refine ⟨.over, ?_, .over⟩
  change (life.next? .preDestroy >>= pure) = some .over
  rw [hnext p life hp hfits]
  rfl

/-- A removal that is put off keeps `Lively`. -/
theorem Path.lively_of_deferred (hs : s.Smooth) (hlog : s.Logs log)
    (h : Path s x [.deferred key] x') (hx : x.Lively s log k before start) :
    x'.Lively s log k before start := by
  refine h.lively hs hlog (by simp) hx fun _ _ _ _ _ _ _ _ _ hne => absurd ?_ hne
  rw [firings_about]
  rfl

theorem exec_get_lively (hs : s.Smooth) (hlog : s.Logs log) (hslot : w.cache.slot? key = some slot)
    {r : Except CacheError σ} (h : exec (get s key) w = (r, w'))
    (hx : (w.scene d).Lively s log k before start) :
    (({ d with world := w' } : Traffic σ ι ω).handed key r).scene.Lively s log k before start := by
  cases exec_get (d := d) hs.discreet hx.sound hslot h with
  | ok hslot hr hpath =>
    refine hpath.lively_of_key key hs hlog hx (by simp [Deed.key?])
      fun p p' life hp hp' _ _ _ hfits => ?_
    obtain ⟨rfl, -⟩ := hp.of_ready hslot hr
    obtain ⟨slot', hslot', ho, -⟩ := (hpath.sound hx.sound).at_handle rfl
    obtain ⟨rfl, -⟩ := hp'.of_out hslot' ho
    cases hfits
    exact ⟨.inUse, rfl, .out _⟩
  | lost hpath => exact (hpath.not_lost hs []).elim
  | inUse _ _ hpath => exact hpath.lively_still hs hlog hx
  | stalled hpath => exact hpath.lively_still hs hlog hx

theorem exec_finish_lively (hs : s.Smooth) (hlog : s.Logs log) {rest : Multiset (Key × σ)}
    (hh : d.handles = (key, state) ::ₘ rest) {r : Except CacheError Unit}
    (h : exec (finish s key state) w = (r, w')) (hx : (w.scene d).Lively s log k before start) :
    (w'.scene { d with handles := rest }).Lively s log k before start := by
  obtain ⟨slot, hslot, ho, -⟩ := hx.sound.at_handle hh
  obtain ⟨-, failed, -, -, hpath⟩ | ⟨hpending, -, state', time, -, -, hcache, hpath⟩ |
      ⟨-, message, -, -, hpath⟩ :=
    exec_finish (d := d) hs.discreet hh hslot ho h
  · refine hpath.lively_of_removed hs hlog hx fun p life hp hfits => ?_
    obtain ⟨rfl, -⟩ := hp.of_out hslot ho
    cases hfits
    rfl
  · refine hpath.lively_of_key key hs hlog hx (by simp [Deed.key?])
      fun p p' life hp hp' _ _ _ hfits => ?_
    have hslot' : w'.cache.slot? key = some (slot.toReady time state') := by
      rw [hcache, Cache.slot?_promote, Cache.slot?_markIdle]
      exact Cache.update_self hslot (·.toReady time state')
    obtain ⟨rfl, -⟩ := hp.of_out hslot ho
    obtain ⟨rfl, -⟩ := hp'.of_ready hslot' (ho.toReady hpending time state')
    cases hfits
    exact ⟨.ready, rfl, .ready _⟩
  · exact (hpath.not_lost hs []).elim

theorem exec_remove_lively (hs : s.Smooth) (hlog : s.Logs log) (hserves : w.store.Serves)
    {r : Except CacheError Unit} (h : exec (remove s key) w = (r, w'))
    (hx : (w.scene d).Lively s log k before start) :
    (w'.scene d).Lively s log k before start := by
  have hdropped := exec_remove (d := d) hs.discreet hx.sound h
  have hsteady : Steady (remove s key) := .remove hs.discreet
  generalize w'.scene d = y at hdropped ⊢
  cases hdropped with
  | absent hnone herased =>
    cases herased with
    | missed => exact hx
    | spoiled hpath =>
      refine hpath.lively hs hlog (by simp) hx fun _ _ _ _ _ _ _ _ _ hne => absurd ?_ hne
      rw [firings_about]
      rfl
    | removed hrecord hpath =>
      refine hpath.lively_of_removed hs hlog hx fun p life hp hfits => ?_
      obtain ⟨bytes, hbytes⟩ := Option.ne_none_iff_exists'.mp hrecord
      obtain ⟨rfl, -⟩ := hp.of_record hnone hbytes
      cases hfits
      rfl
    | refused => exact absurd rfl (hsteady.at_store hserves h _)
    | failed => exact hx
  | ready hslot hr hpath =>
    refine hpath.lively_of_removed hs hlog hx fun p life hp hfits => ?_
    obtain ⟨rfl, -⟩ := hp.of_ready hslot hr
    cases hfits
    rfl
  | out _ _ hpath => exact hpath.lively_of_deferred hs hlog hx
  | stalled => exact hx

end

/-! ## Steps and runs -/

theorem Request.lively (hs : s.Smooth) (hlog : s.Logs log) (hserves : t.world.store.Serves)
    {request : Request σ ι} (hq : request.Plain t) {answer : Except CacheError (Response σ)}
    (h : exec (request.perform s) t.world = (answer, w))
    (hx : t.scene.Lively s log k before start) :
    (w.scene t.toDesk).Lively s log k before start := by
  cases request with
  | create args => exact hq.elim
  | get key => exact hq.elim
  | finish key state => exact hq.elim
  | removeOnFinish key =>
    obtain ⟨state, hstate⟩ := hq
    obtain ⟨slot, hslot, ho⟩ := hx.sound.out_of_mem hstate
    obtain ⟨r, hw, -⟩ := exec_bind_pure h
    exact (Op.exec_removeOnFinish (d := t.toDesk) hslot ho hw).2.lively_of_deferred hs hlog hx
  | remove key =>
    obtain ⟨r, hw, -⟩ := exec_bind_pure h
    exact exec_remove_lively hs hlog hserves hw hx
  | sweep =>
    obtain ⟨r, hw, -⟩ := exec_bind_pure h
    obtain ⟨-, w₁, answer', hparade, hexpire⟩ :=
      Op.exec_sweep_cases (d := t.toDesk) hs.discreet hx.sound hw
    rw [expirePassivated_of_lasting hs hexpire]
    exact hparade.lively hs hlog hx
  | passivateAll =>
    obtain ⟨r, hw, -⟩ := exec_bind_pure h
    exact (Op.exec_passivateAll (d := t.toDesk) hs.discreet hx.sound hw).2.lively hs hlog hx
  | expirePassivated =>
    obtain ⟨r, hw, -⟩ := exec_bind_pure h
    exact expirePassivated_of_lasting hs hw ▸ hx
  | peek key =>
    obtain ⟨r, hw, -⟩ := exec_bind_pure h
    exact (Op.exec_peek hw t.toDesk).1 ▸ hx
  | contains key =>
    obtain ⟨r, hw, -⟩ := exec_bind_pure h
    exact (Op.exec_contains hw t.toDesk).1 ▸ hx

theorem Task.withdraw_lively (hs : s.Smooth) (hlog : s.Logs log) {task : Task ι}
    {rest : Multiset (Task ι)} {deadline : Deadline} {failure failure' : CacheError}
    (h : d.tasks = task ::ₘ rest) (hd : task.deadline? = some deadline)
    (hw : exec (task.withdraw failure) w = (.error failure', w'))
    (hx : (w.scene d).Lively s log k before start) :
    (w'.scene { d with tasks := rest }).Lively s log k before start :=
  (task.withdraw_path h hd hw).lively_still hs hlog hx

/-- Each step keeps `Lively`. Where callbacks run, the cases of the answers say which. -/
theorem Step.lively (hs : s.Smooth) (hlog : s.Logs log) (hserves : t.world.store.Serves)
    (h : Step s t event t') (hu : event ≠ .tampered) (hx : t.scene.Lively s log k before start) :
    t'.scene.Lively s log k before start := by
  cases h with
  | pass h hc => exact (Path.one (.pass h fun _ => hc)).lively_still hs hlog hx
  | tamper => exact absurd rfl hu
  | edit state' h => exact (Path.one (.edit state' h)).lively_still hs hlog hx
  | create args => exact (Path.one (.ask args _)).lively_still hs hlog hx
  | serve hq hw =>
    exact (Request.meet _ _).lively_still hs hlog (Request.lively hs hlog hserves hq hw hx)
  | finish h hw => exact exec_finish_lively (d := t.toDesk) hs hlog h hw hx
  | @get key answer w h hw =>
    obtain ⟨slot, hslot⟩ := Option.isSome_iff_exists.mp h
    have hget := exec_get_lively (d := t.toDesk) hs hlog hslot hw hx
    cases answer with
    | ok state => exact (Path.one (.meet key)).lively_still hs hlog hget
    | error failure => exact (Path.one (.meet key)).lively_still hs hlog hget
  | @miss key failure w h hw =>
    refine (Path.one (.meet key)).lively_still (x := w.scene t.toDesk) hs hlog ?_
    exact (Step.miss_scene hx.sound h hw).1 ▸ hx
  | fetch h hw => exact (Path.one (Step.fetch_shift hx.sound h hw)).lively_still hs hlog hx
  | @look task rest deadline found w h hd hw =>
    by_cases hfound : found = .taken
    · subst hfound
      exact (Path.one (Step.take_shift h hd hw)).lively_still hs hlog hx
    · change Scene.Lively s log k before start { w.scene t.toDesk with tasks := _ }
      rw [task.after_cons hfound, ← h]
      exact exec_look_lively (d := t.toDesk) hs hlog hw (fun he => hfound (Except.ok.inj he)) hx
  | fail h hd hw hw' =>
    have hlook := exec_look_lively (d := t.toDesk) hs hlog hw nofun hx
    exact Task.withdraw_lively hs hlog h hd hw' hlook
  | giveUp h hd hw => exact Task.withdraw_lively (d := t.toDesk) hs hlog h hd hw hx
  | introduce h hk hw => exact exec_introduce_lively (d := t.toDesk) hs hlog h hk hw hx
  | @settle key rest answer w h hw =>
    have hsettle := exec_settle_lively (d := t.toDesk) hs hlog hserves h hw hx
    cases answer <;> exact hsettle

/-- Each run keeps `Lively`, over a store that `Serves`. -/
theorem Run.lively (hs : s.Smooth) (hlog : s.Logs log) (hserves : t.world.store.Serves)
    (hx : t.scene.Lively s log k before start) (h : Run s t events t') (hu : Undisturbed events) :
    t'.world.store.Serves ∧ t'.scene.Lively s log k before start := by
  induction h with
  | nil => exact ⟨hserves, hx⟩
  | @snoc t' t'' events event hrun hstep ih =>
    obtain ⟨hserves', hx'⟩ := ih fun h => hu (List.mem_append_left _ h)
    have he : event ≠ .tampered := fun he => hu (by simp [he])
    exact ⟨hserves'.moves (hstep.moves hs.discreet hx'.sound he),
      hstep.lively hs hlog hserves' he hx'⟩

/-- `life` is where `key` is: `.ready` for a ready slot, `.inUse` for a checked-out one, `.stored`
for a record, and otherwise `.unborn` or `.over`. -/
structure Traffic.Agrees (t : Traffic σ ι ω) (key : Key) (life : Life) : Prop where
  ready : life = .ready ↔ ∃ slot, t.world.cache.slot? key = some slot ∧ slot.stage = .ready
  inUse : life = .inUse ↔ t.Out key
  stored : life = .stored ↔ t.world.store.contents key ≠ none
  ended : life = .unborn ∨ life = .over ↔ t.Gone key

theorem Life.Fits.agrees {p : Place σ} {life : Life} (h : life.Fits p) (hp : Lies t.scene k p) :
    t.Agrees k life := by
  cases hp with
  | unmet hs hr | gone hs hr =>
    have hs : t.world.cache.slot? k = none := hs
    have hr : t.world.store.contents k = none := hr
    cases h <;> constructor <;> simp [Traffic.Out, Traffic.Gone, Traffic.Linked, Cache.isLinked, hs, hr]
  | stored hs hr =>
    have hs : t.world.cache.slot? k = none := hs
    have hr : t.world.store.contents k = some _ := hr
    cases h
    constructor <;> simp [Traffic.Out, Traffic.Gone, hs, hr]
  | coming hs hplaceholder hr =>
    have hs : t.world.cache.slot? k = some _ := hs
    have hr : t.world.store.contents k = _ := hr
    cases h
    constructor <;> simp [Traffic.Out, Traffic.Gone, hs, hr, hplaceholder.stage]
  | ready hs hready hr =>
    have hs : t.world.cache.slot? k = some _ := hs
    have hr : t.world.store.contents k = none := hr
    cases h
    constructor <;>
      simp [Traffic.Out, Traffic.Gone, Traffic.Linked, Cache.isLinked, hs, hr, hready.stage]
  | out hs hout _ hr =>
    have hs : t.world.cache.slot? k = some _ := hs
    have hr : t.world.store.contents k = none := hr
    cases h
    constructor <;>
      simp [Traffic.Out, Traffic.Gone, Traffic.Linked, Cache.isLinked, hs, hr, hout.stage]

/-- A `Fresh` cache is `Lively` if its records decode. -/
theorem Traffic.Fresh.lively (ht : t.Fresh s) (hnow : .earliest ≤ t.world.now ∧ t.world.now ≤ .latest)
    (hrecords : ∀ bytes, t.world.store.contents key = some bytes →
      ∃ state, Store.stateOf s.codec key bytes = .ok state) :
    t.scene.Lively s log key (t.heard log key) (.ofRecord (t.world.store.contents key)) := by
  have hslot : t.scene.cache.slot? key = none := by
    change t.world.cache.slot? key = none
    rw [ht.cache]
    rfl
  have hnone : t.heard log key = t.heard log key ++ [] := (List.append_nil _).symm
  refine ⟨ht.sound, hnow, ?_⟩
  cases hr : t.world.store.contents key with
  | some bytes =>
    have hk : key ∈ t.scene.known := ht.stored key (hr.trans_ne (Option.some_ne_none _))
    exact ⟨_, [], .stored, .stored hslot hr hk, hrecords bytes hr, hnone, rfl, .stored bytes⟩
  | none =>
    by_cases hk : key ∈ t.scene.known
    · exact ⟨_, [], .unborn, .gone hslot hr hk, trivial, hnone, rfl, .unborn⟩
    · exact ⟨_, [], .unborn, .unmet hslot hr hk, trivial, hnone, rfl, .unmet⟩

/-- The firings of `Op.passivate` by its answer: `.postPassivate` follows if the record was written,
else `.postActivate`. -/
def afterWriting (key : Key) : Except CacheError Unit → List Firing
  | .ok _ => [⟨.prePassivate, key, false⟩, ⟨.postPassivate, key, false⟩]
  | .error _ => [⟨.prePassivate, key, false⟩, ⟨.postActivate, key, false⟩]

/-- The phases of the firings of each key are a path of the automaton `Life` that ends where the
session is (`Agrees`), and none comes after `.preDestroy`. `Op.passivate` answers as
`Store.passivate` does, and fires `afterWriting`. -/
theorem Run.automaton (hs : s.Smooth) (hlog : s.Logs log) (ht : t.Fresh s)
    (hserves : t.world.store.Serves) (hnow : .earliest ≤ t.world.now ∧ t.world.now ≤ .latest)
    (hrecords : ∀ key bytes, t.world.store.contents key = some bytes →
      ∃ state, Store.stateOf s.codec key bytes = .ok state)
    (h : Run s t events t') (hu : Undisturbed events) (key : Key) :
    (∃ fs life, t'.heard log key = t.heard log key ++ fs ∧
        (Life.ofRecord (t.world.store.contents key)).follow? (fs.map (·.phase)) = some life ∧
        t'.Agrees key life ∧
        ∀ fs₁ fs₂, fs = fs₁ ++ fs₂ →
          (Life.ofRecord (t.world.store.contents key)).follow? (fs₁.map (·.phase)) = some .over →
            fs₂ = []) ∧
      ∀ w slot state r w', w.cache.slot? key = some slot → slot.IsReady state →
        exec (Op.passivate s key) w = (r, w') →
        log w'.outside = log w.outside ++ afterWriting key r ∧
          ∃ state' now, s.Turns .prePassivate key state state' ∧
            r = (exec (Store.passivate s.codec now key state') w.store).1 := by
  refine ⟨?_, fun w slot state r w' hslot hready hw => ⟨?_, exec_passivate_answer hs hslot hready hw⟩⟩
  · obtain ⟨-, -, -, p, fs, life, hp, -, hfs, hlife, hfits⟩ :=
      h.lively hs hlog hserves (ht.lively hnow (hrecords key)) hu
    refine ⟨fs, life, hfs, hlife, hfits.agrees hp, fun fs₁ fs₂ he hover => ?_⟩
    rw [he, List.map_append] at hlife
    exact List.map_eq_nil_iff.mp (Life.eq_nil_of_over hover (hlife.trans_ne (Option.some_ne_none _)))
  · obtain ⟨ds, hparted⟩ := Op.exec_passivate (d := ({} : Desk σ ι)) hs.discreet hslot hready hw
    have hfirings := hparted.path.log hlog
    cases hparted with
    | stored => exact hfirings
    | kept => exact hfirings
    | lost fs _ hpath => exact (hpath.not_lost hs fs).elim

theorem Codec.flag_faithful : Codec.flag.Faithful := by
  refine .of_stateDepth ?_
  rintro (_ | _) _ ⟨⟩
  · exact ⟨.bool false, .bool false, by rfl, rfl, rfl⟩
  · exact ⟨.bool true, .bool true, by rfl, rfl, rfl⟩

theorem Surroundings.small_smooth : (Surroundings.small fun _ _ => false).Smooth where
  discreet := recording_discreet
  succeeds _ _ _ h := (recording_fires h).1.symm
  readable := Codec.flag_faithful.roundTrips.readable
  shallow := Codec.flag_faithful.shallow
  lasting := rfl

/-- A session is made and passivated: its firings lead to `.stored`. -/
theorem Run.automaton_of_parked :
    ∃ events t' fs life, Run (.small fun _ _ => false)
        (.small (fun _ _ => false) fun _ _ => none) events t' ∧
      t'.heard Journal.log (.ofNat 0) = fs ∧
      Life.unborn.follow? (fs.map (·.phase)) = some life ∧ t'.Agrees (.ofNat 0) life ∧
      t'.world.store.contents (.ofNat 0) ≠ none := by
  have h₁ := (Run.nil (s := .small fun _ _ => false)
    (t := .small (fun _ _ => false) fun _ _ => none)).thenCreate true (by decide) (fun hk => hk rfl)
  have h₂ := h₁.thenServe .passivateAll trivial
  obtain ⟨⟨fs, life, hheard, hlife, hagrees, -⟩, -⟩ := Run.automaton
    (t := .small (fun _ _ => false) fun _ _ => none) Surroundings.small_smooth
    Surroundings.recording_logs (Traffic.opened_fresh _ _ _ _)
    (Store.serves_of_memory (fun _ _ _ => rfl) rfl) (by decide)
    (fun _ bytes (hr : none = some bytes) => nomatch hr) h₂ (by simp [Undisturbed]) (.ofNat 0)
  exact ⟨_, _, fs, life, h₂, hheard, hlife, hagrees, by decide⟩

/-- `Codec.chain` round-trips, but a state of length 127 nests too deep for `Envelope.decode`:
`passivateAll` answers that it was passivated, the next `get` fires `.preActivate` and deletes the
record, and no point of the automaton then `Agrees` with the key. -/
theorem Run.automaton_lost : ∃ events t',
    Surroundings.chained.Calm ∧ Surroundings.chained.codec.RoundTrips ∧
      Run .chained (.chained (.memory {})) events t' ∧ Undisturbed events ∧
      (t'.heard Journal.log (.ofNat 0)).map (·.phase) =
        [.postConstruct, .prePassivate, .postPassivate, .preActivate] ∧
      t'.Gone (.ofNat 0) ∧
      ∀ life, Life.unborn.follow? ((t'.heard Journal.log (.ofNat 0)).map (·.phase)) = some life →
        ¬t'.Agrees (.ofNat 0) life := by
  have hs : Surroundings.chained.Calm := Surroundings.recording_calm
  have hserves : (Traffic.chained (.memory {})).world.store.Serves :=
    Store.serves_of_memory (fun _ _ _ => rfl) rfl
  have h₁ := (Run.nil (s := .chained) (t := .chained (.memory {}))).thenCreate 127 (by decide)
    (fun hk => hk rfl)
  have hx := h₁.sound hs.discreet (Traffic.opened_fresh _ _ _ _)
  obtain ⟨report, w, hdrain, hlost⟩ := Op.exec_passivateAll_chain hs rfl hx (by decide)
  have hreport : .ok { examined := 1, passivated := 1 } = Except.ok report := congrArg Prod.fst hdrain
  obtain rfl := Except.ok.inj hreport
  obtain ⟨hslot, bytes, hr, hb⟩ := hlost rfl (.ofNat 0) _ 127 rfl ⟨rfl, rfl, rfl, rfl, rfl⟩ (by decide)
  have h₂ := h₁.snoc (.serve (show Request.Plain _ .passivateAll from trivial)
    (Op.exec_perform_passivateAll hdrain))
  have hmoves := Run.moves hs.discreet (Traffic.opened_fresh _ _ _ _).sound h₂ (by simp [Undisturbed])
  have hroom : 0 = w.cache.occupied := congrArg (·.2.cache.occupied) hdrain
  obtain ⟨t', hrun, hgone, hlogged : t'.world.outside.log = w.outside.log ++ _⟩ :=
    h₂.thenLose hs Surroundings.recording_logs (hserves.moves hmoves) hslot hr hb
      (hroom ▸ by decide)
  have hlog : [.postConstruct, .prePassivate, .postPassivate].map (⟨·, .ofNat 0, false⟩) = w.outside.log :=
    congrArg (·.2.outside.log) hdrain
  have hheard : (t'.heard Journal.log (.ofNat 0)).map (·.phase) =
      [.postConstruct, .prePassivate, .postPassivate, .preActivate] := by
    rw [Traffic.heard, show Journal.log _ = _ from hlogged, ← hlog]
    rfl
  refine ⟨_, t', hs, Codec.chain_roundTrips, hrun, by simp [Undisturbed], hheard, hgone, ?_⟩
  rw [hheard]
  rintro _ ⟨⟩ hagrees
  simpa using hagrees.ended.mpr hgone

end SessionCache
