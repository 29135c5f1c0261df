import Mathlib.Data.Set.Card
import SessionCache.Proofs.Failure
import SessionCache.Proofs.Residency
import SessionCache.Proofs.Traffic.Ageing

/-!
# The statistics balance

Every session that was made is still there, or was removed, or expired: the numbers that a cache
keeps tell how many sessions there are. One thing can upset them. While an operation waits for room
to bring a session into memory, the record can expire; if a callback fails for the session after
that, it counts as removed, though it had expired already.

* `Scene.population`: the keys whose sessions are in memory or in the store.
* `Hop.conserves`: a hop adds a session, or counts one as removed, or leaves their number as it is.
* `Traffic.Forfeits`: a callback fails for a session that has expired.
* `Course.conservation`: the balance, where that does not happen.
-/

namespace SessionCache

variable {σ ι ω : Type} {s : Surroundings σ ι ω} {x x' : Scene σ ι ω} {ds : List (Deed σ)}
  {t t' : Traffic σ ι ω} {event : Traffic.Event σ ι} {events : List (Traffic.Event σ ι)} {k : Key}
  {w w' : World σ ω} {d : Desk σ ι}

/-! ## What a hop does to the number of sessions -/

/-- 1 for a place with a session, else 0. -/
def Place.lives : Place σ → Nat
  | .stored _ | .coming (some _) | .ready _ | .out _ => 1
  | .unmet | .gone | .coming none => 0

/-- Whether a deed makes a session: so does `entered`. -/
def Deed.enters : Deed σ → Bool
  | .entered _ _ => true
  | _ => false

@[simp] theorem countP_enters_fired (fs : List Firing) :
    (fs.map Deed.fired : List (Deed σ)).countP (·.enters) = 0 := by
  rw [List.countP_map]
  exact List.countP_eq_zero.mpr fun f _ => Bool.false_ne_true

/-- A hop changes `lives` by the deeds that make a session and those that count as a removal,
without `removalTimeout` and with deletes that pass. A `lost` for a key that is `.coming none` is
left out: that one was counted before. -/
theorem Hop.conserves {p p' : Place σ} (h : Hop s x k p ds p')
    (ht : s.settings.removalTimeout = none) (hx : x.Lets k)
    (hp : p = .coming none → .lost k ∉ ds) :
    (p' = .coming none → p = .coming none) ∧
      p'.lives + ds.countP (·.counts) = p.lives + ds.countP (·.enters) := by
  have hfired : ∀ fs : List Firing, ∀ n : Nat,
      n + (fs.map .fired : List (Deed σ)).countP (·.counts) =
        n + (fs.map .fired : List (Deed σ)).countP (·.enters) := fun fs n => by
    rw [countP_counts_fired, countP_enters_fired]
  cases h with
  | still => exact ⟨id, rfl⟩
  | attendStored | attendComing => exact ⟨id, hfired _ _⟩
  | purge h | purgeComing h => exact absurd ht h
  | @withdraw bytes? => cases bytes? <;> exact ⟨nofun, rfl⟩
  | @loseComing _ bytes? _ hd =>
    cases bytes? with
    | none => exact absurd (List.mem_cons_of_mem _ List.mem_cons_self) (hp rfl)
    | some bytes =>
      rw [hd.none hx]
      exact ⟨nofun, rfl⟩
  | loseParked hd =>
    rw [hd.none hx]
    exact ⟨nofun, rfl⟩
  | unmade | lose =>
    refine ⟨nofun, ?_⟩
    rw [List.countP_append, List.countP_append, countP_counts_fired, countP_enters_fired]
    rfl
  | meet | announce | settle | enter | checkOut | park | stay | leave | defer | giveIn | leaveOut
  | loseOut | erase | spoil => exact ⟨nofun, rfl⟩

theorem Path.conserves (hx : Sound s x) (h : Path s x ds x') (hu : .tampered ∉ ds)
    (ht : s.settings.removalTimeout = none) (hgate : x.Lets k)
    (hlost : Lies x k (.coming none) → .lost k ∉ ds) {p : Place σ} (hp : Lies x k p) :
    ∃ p', Lies x' k p' ∧
      p'.lives + (about k ds).countP (·.counts) = p.lives + (about k ds).countP (·.enters) := by
  -- Once a session has a record, it keeps it until it is in memory.
  obtain ⟨p', hp', hbalance⟩ := h.follow hx hu hp
    (P := fun q es => (p = .coming none → .lost k ∉ es) →
      (q = .coming none → p = .coming none) ∧
        q.lives + es.countP (·.counts) = p.lives + es.countP (·.enters))
    (fun _ => ⟨id, rfl⟩) fun {y q q' es es'} hfault _ hhop hq hlost => by
      obtain ⟨hback, hes⟩ := hq fun he hmem => hlost he (List.mem_append_left _ hmem)
      obtain ⟨hback', hes'⟩ := hhop.conserves ht (fun n => hfault ▸ hgate n) fun he hmem =>
        hlost (hback he) (List.mem_append_right _ hmem)
      refine ⟨hback ∘ hback', ?_⟩
      rw [List.countP_append, List.countP_append]
      omega
  exact ⟨p', hp', (hbalance fun he hmem => hlost (he ▸ hp) (List.mem_filter.mp hmem).1).2⟩

/-! ## Sessions that are there -/

namespace Scene

/-- The keys with a slot that is ready or checked out. -/
def residents (x : Scene σ ι ω) : Set Key :=
  { k | ∃ slot, x.cache.slot? k = some slot ∧ slot.stage ≠ .passivated }

/-- `residents`, and the keys with a record. -/
def population (x : Scene σ ι ω) : Set Key := x.residents ∪ { k | x.contents k ≠ none }

end Scene

/-- `lives` of the place of `k` is 1 exactly if `k` is in `population`. -/
theorem Lies.lives {p : Place σ} (h : Lies x k p) :
    k ∈ x.population ∧ p.lives = 1 ∨ k ∉ x.population ∧ p.lives = 0 := by
  cases h with
  | unmet hs hr | gone hs hr => exact .inr ⟨by simp [Scene.population, Scene.residents, hs, hr], rfl⟩
  | stored hs hr => exact .inl ⟨.inr (hr.trans_ne (Option.some_ne_none _)), rfl⟩
  | @coming slot bytes? hs hslot hr =>
    cases bytes? with
    | none =>
      exact .inr ⟨by simp [Scene.population, Scene.residents, hs, hr, hslot.stage], rfl⟩
    | some bytes => exact .inl ⟨.inr (hr.trans_ne (Option.some_ne_none _)), rfl⟩
  | ready hs hslot hr => exact .inl ⟨.inl ⟨_, hs, hslot.stage.trans_ne nofun⟩, rfl⟩
  | out hs hslot hp hr => exact .inl ⟨.inl ⟨_, hs, hslot.stage.trans_ne nofun⟩, rfl⟩

/-- A key with a record is no resident. -/
theorem Lies.not_resident {p : Place σ} (h : Lies x k p) (hr : x.contents k ≠ none) :
    k ∉ x.residents := by
  rintro ⟨slot, hslot, hstage⟩
  cases h with
  | unmet hs | gone hs | stored hs => exact nomatch hslot.symm.trans hs
  | coming hs hplaceholder =>
    obtain rfl := Option.some.inj (hslot.symm.trans hs)
    exact hstage hplaceholder.stage
  | ready _ _ hnone | out _ _ _ hnone => exact hr hnone

open Classical in
theorem Lies.indicator {p : Place σ} (h : Lies x k p) :
    (if k ∈ x.population then 1 else 0) = p.lives := by
  obtain ⟨halive, hp⟩ | ⟨hnot, hp⟩ := h.lives
  · rw [if_pos halive, hp]
  · rw [if_neg hnot, hp]

/-! ## Counting -/

section Counting

open Classical in
theorem ncard_eq_sum {keys : Set Key} {all : Finset Key} (h : keys ⊆ all) :
    keys.ncard = ∑ k ∈ all, if k ∈ keys then 1 else 0 := by
  have hkeys : keys = (all.filter (· ∈ keys) : Finset Key) := by
    ext k
    simpa using fun hk => h hk
  rw [← Finset.card_filter, ← Set.ncard_coe_finset, ← hkeys]

/-- The deeds that satisfy `q` are as many as those about each key, added up. -/
theorem sum_countP_about {q : Deed σ → Bool} {all : Finset Key}
    (h : ∀ e ∈ ds, q e = true → ∃ k ∈ all, e.key? = some k) :
    ∑ k ∈ all, (about k ds).countP q = ds.countP q := by
  induction ds with
  | nil => simp
  | cons e ds ih =>
    have hone : ∑ k ∈ all, (about k [e]).countP q = [e].countP q := by
      by_cases hq : q e = true
      · obtain ⟨key, hkey, he⟩ := h e List.mem_cons_self hq
        have hcount : ∀ k, (about k [e]).countP q = if key = k then 1 else 0 := fun k => by
          by_cases hk : key = k <;> simp [about, he, hk, hq]
        simp [hcount, hkey, hq]
      · have hcount : ∀ k, (about k [e]).countP q = 0 := fun k =>
          List.countP_eq_zero.mpr fun e' he' => by
            rwa [List.mem_singleton.mp (List.mem_filter.mp he').1]
        simp [hcount, hq]
    have hcons : ∀ k, about k (e :: ds) = about k [e] ++ about k ds := fun k => about_append [e] ds
    have hcount : (e :: ds).countP q = [e].countP q + ds.countP q := by
      rw [← List.countP_append]
      rfl
    rw [hcount, ← hone, ← ih fun e' he' => h e' (List.mem_cons_of_mem _ he'),
      ← Finset.sum_add_distrib]
    exact Finset.sum_congr rfl fun k _ => by rw [hcons, List.countP_append]

end Counting

/-! ## The balance -/

/-- `created` is `removed + expired` and the size of `population`; `fault` lets deletes pass. -/
structure Scene.Counted (s : Surroundings σ ι ω) (x : Scene σ ι ω) : Prop where
  sound : Sound s x
  tidy : x.Tidy
  gate : ∀ k, x.Lets k
  finite : x.population.Finite
  count : x.cache.counters.created =
    x.cache.counters.removed + x.cache.counters.expired + x.population.ncard

/-- A path changes the size of `population` by the deeds that make a session and those that count as
a removal. -/
theorem Path.population (hx : x.Counted s) (h : Path s x ds x') (hu : .tampered ∉ ds)
    (ht : s.settings.removalTimeout = none)
    (hlost : ∀ k, Lies x k (.coming none) → .lost k ∉ ds) :
    x'.population.Finite ∧
      x'.population.ncard + ds.countP (·.counts) = x.population.ncard + ds.countP (·.enters) := by
  classical
  have hfares : ∀ k, (if k ∈ x'.population then 1 else 0) + (about k ds).countP (·.counts) =
      (if k ∈ x.population then 1 else 0) + (about k ds).countP (·.enters) := by
    intro k
    obtain ⟨p, hp⟩ := hx.tidy k
    obtain ⟨p', hp', hbalance⟩ := h.conserves hx.sound hu ht (hx.gate k) (hlost k) hp
    rw [hp'.indicator, hp.indicator]
    exact hbalance
  -- All sum up to the numbers of the path, over any keys that include those of its deeds.
  let all : Finset Key := hx.finite.toFinset ∪ (ds.filterMap (·.key?)).toFinset
  have hkey : ∀ e ∈ ds, ∀ k, e.key? = some k → k ∈ all := fun e he k hk =>
    Finset.mem_union_right _ (List.mem_toFinset.mpr (List.mem_filterMap.mpr ⟨e, he, hk⟩))
  have hbefore : x.population ⊆ all := fun k hk =>
    Finset.mem_union_left _ (hx.finite.mem_toFinset.mpr hk)
  have hafter : x'.population ⊆ all := by
    intro k hk
    by_contra hnot
    have hnone : about k ds = [] := List.filter_eq_nil_iff.mpr fun e he hk' =>
      hnot (hkey e he k (of_decide_eq_true hk'))
    have hbalance := hfares k
    rw [hnone, if_pos hk, if_neg fun hk' => hnot (hbefore hk')] at hbalance
    exact nomatch hbalance
  refine ⟨all.finite_toSet.subset hafter, ?_⟩
  have hcounts : ∑ k ∈ all, (about k ds).countP (·.counts) = ds.countP (·.counts) :=
    sum_countP_about fun e he hq => by
      cases e <;> first | exact absurd hq Bool.false_ne_true | exact ⟨_, hkey _ he _ rfl, rfl⟩
  have henters : ∑ k ∈ all, (about k ds).countP (·.enters) = ds.countP (·.enters) :=
    sum_countP_about fun e he hq => by
      cases e <;> first | exact absurd hq Bool.false_ne_true | exact ⟨_, hkey _ he _ rfl, rfl⟩
  rw [ncard_eq_sum hafter, ncard_eq_sum hbefore, ← hcounts, ← henters, ← Finset.sum_add_distrib,
    ← Finset.sum_add_distrib]
  exact Finset.sum_congr rfl fun k _ => hfares k

theorem Path.counted (hx : x.Counted s) (h : Path s x ds x') (hu : .tampered ∉ ds)
    (ht : s.settings.removalTimeout = none) (hlost : ∀ k, Lies x k (.coming none) → .lost k ∉ ds)
    (hcreated : x'.cache.counters.created = x.cache.counters.created + ds.countP (·.enters))
    (hexpired : x'.cache.counters.expired = x.cache.counters.expired) : x'.Counted s := by
  obtain ⟨hfinite, hncard⟩ := h.population hx hu ht hlost
  refine ⟨h.sound hx.sound, h.tidy hx.sound hu hx.tidy, fun k n => ?_, hfinite, ?_⟩
  · rw [h.surroundings.2]
    exact hx.gate k n
  · rw [hcreated, hexpired, h.removed, hx.count]
    omega

/-- A key that a task awaits before and after a path was not lost. -/
theorem Path.unlost_of_awaits (hx : x.Counted s) (h : Path s x ds x') (hu : .tampered ∉ ds)
    (hawaits : ∃ task ∈ x'.tasks, task.awaits k = true) : .lost k ∉ ds := by
  intro hmem
  obtain ⟨p, hp⟩ := hx.tidy k
  have hgone := h.of_ends hx.sound hu (hx.gate k) hp ⟨_, hmem, rfl⟩
  obtain ⟨task, htask, ha⟩ := hawaits
  obtain ⟨rest, hrest⟩ := Multiset.exists_cons_of_mem htask
  obtain ⟨slot, hslot, -⟩ := (h.sound hx.sound).at_task hrest ha
  cases hgone with
  | gone hs => exact nomatch hslot.symm.trans hs

/-- `Store.purgeOlderThan` takes the keys out of `population` that `expired` counts. -/
theorem Scene.Counted.purge (hx : x.Counted s) {keys : List Key} (hnodup : keys.Nodup)
    (hthere : ∀ key ∈ keys, x.contents key ≠ none)
    (hx' : x' = { x with
      cache := x.cache.countExpired keys.length
      contents := fun key => if key ∈ keys then none else x.contents key })
    (hsound : Sound s x') (htidy : x'.Tidy) : x'.Counted s := by
  have hpopulation : x'.population = x.population \ { key | key ∈ keys } := by
    ext key
    rw [hx']
    by_cases hkey : key ∈ keys
    · obtain ⟨p, hp⟩ := hx.tidy key
      have hnot := hp.not_resident (hthere key hkey)
      simpa [Scene.population, Scene.residents, hkey] using hnot
    · simp [Scene.population, Scene.residents, hkey]
  have hsubset : { key | key ∈ keys } ⊆ x.population := fun key hkey => .inr (hthere key hkey)
  have hfinite : { key | key ∈ keys }.Finite := keys.finite_toSet
  refine ⟨hsound, htidy, fun k n => ?_, ?_, ?_⟩
  · rw [hx']
    exact hx.gate k n
  · rw [hpopulation]
    exact hx.finite.subset Set.sdiff_subset
  · have hlength : { key | key ∈ keys }.ncard = keys.length := by
      rw [← List.coe_toFinset, Set.ncard_coe_finset, List.toFinset_card_of_nodup hnodup]
    have hle := Set.ncard_le_ncard hsubset hx.finite
    have hcount := hx.count
    have hcreated : x'.cache.counters.created = x.cache.counters.created := by rw [hx']; rfl
    have hremoved : x'.cache.counters.removed = x.cache.counters.removed := by rw [hx']; rfl
    have hexpired : x'.cache.counters.expired = x.cache.counters.expired + keys.length := by
      rw [hx']; rfl
    rw [hcreated, hremoved, hexpired, hpopulation, Set.ncard_sdiff hsubset hfinite]
    omega

/-! ## Steps -/

/-- `created` and `expired` are the same in `w` and `w'`. -/
def World.Tallies (w w' : World σ ω) : Prop := Cache.SameTally w.cache w'.cache

theorem local_tallies (key : Key) : Op.Local key (World.Tallies (σ := σ) (ω := ω)) where
  refl w := ⟨rfl, rfl⟩
  trans h h' := ⟨h'.1.trans h.1, h'.2.trans h.2⟩
  aside h := by rw [World.Tallies, h.cache]; exact ⟨rfl, rfl⟩
  store _ := ⟨rfl, rfl⟩
  cache h _ _ := h.tally

theorem countP_enters_incidental (h : ∀ e ∈ ds, e.Incidental) : ds.countP (·.enters) = 0 :=
  List.countP_eq_zero.mpr fun e he hq => by
    cases e with
    | entered => exact h _ he
    | _ => exact absurd hq Bool.false_ne_true

/-- The event `.created key`. -/
def Traffic.Event.Creates : Traffic.Event σ ι → Prop
  | .answered (.create _) (.ok (.created _)) => True
  | _ => False

/-- The deeds of an event have one `entered` if it is `.created`, else none. -/
theorem Account.enters (h : Account s x event ds) :
    event.Creates ∧ ds.countP (·.enters) = 1 ∨ ¬event.Creates ∧ ds.countP (·.enters) = 0 := by
  cases h with
  | created => exact .inl ⟨trivial, rfl⟩
  | quiet h => exact .inr ⟨id, countP_enters_incidental h⟩
  | @noRoom task _ _ _ h =>
    refine .inr ⟨?_, countP_enters_incidental h⟩
    cases task <;> exact id
  | unmade =>
    refine .inr ⟨id, ?_⟩
    rw [List.countP_append, countP_enters_fired]
    rfl
  | got =>
    refine .inr ⟨id, ?_⟩
    rw [List.countP_append, countP_enters_fired]
    rfl
  | fallen h =>
    refine .inr ⟨id, ?_⟩
    cases h with
    | lost =>
      rw [List.countP_append, countP_enters_fired]
      rfl
    | spoiled | missed => rfl
    | failed => exact countP_enters_fired _
  | refused => exact .inr ⟨id, countP_enters_fired _⟩
  | @upkeep request _ _ hq h =>
    refine .inr ⟨?_, countP_enters_incidental h⟩
    cases request with
    | create => exact hq.elim
    | _ => exact id
  | deferred hq =>
    obtain rfl | rfl := hq <;> exact .inr ⟨id, rfl⟩
  | tampered | absent | busy | vain | returned | lostOut | left | removed | spoiled | nothing
  | peeked | queried => exact .inr ⟨id, rfl⟩

/-- A step that deletes no records for their age keeps `expired`, and adds one to `created` exactly
if the event is `.created`. -/
theorem Step.tally (hs : s.Discreet) (hx : Sound s t.scene) (h : Step s t event t')
    (hu : event ≠ .tampered) (ha : ¬event.Ages) :
    t'.world.cache.counters.expired = t.world.cache.counters.expired ∧
      (event.Creates ∧ t'.world.cache.counters.created = t.world.cache.counters.created + 1 ∨
        ¬event.Creates ∧ t'.world.cache.counters.created = t.world.cache.counters.created) := by
  by_cases hc : event.Creates
  · cases h with
    | @introduce args rest answer w ht hk hw =>
      obtain ⟨state, state', slot, rfl, -, -, -, -, hcache, -⟩ | ⟨message, fs, rfl, -⟩ :=
        Op.exec_introduce (d := t.toDesk) hs ht hk hw
      · refine ⟨?_, .inl ⟨hc, ?_⟩⟩
        · exact congrArg (·.counters.expired) hcache
        · exact congrArg (·.counters.created) hcache
      · exact hc.elim
    | @serve request answer w hq hw =>
      cases request with
      | create => exact hq.elim
      | _ => exact hc.elim
    | @fail task | @giveUp task => cases task <;> exact hc.elim
    | _ => exact hc.elim
  · have hintroduce : ∀ {args : ι} {r : Except CacheError Key} {w w' : World σ ω},
        event = .answered (.create args) (r.map .created) →
        exec (Op.introduce s args) w = (r, w') → w.Tallies w' := by
      intro args r w w' he hw
      -- What is under way elsewhere does not matter to the operation.
      have hd : ({ tasks := .introducing args ::ₘ 0 } : Desk σ ι).tasks = .introducing args ::ₘ 0 :=
        rfl
      obtain ⟨_, _, _, rfl, -⟩ | ⟨message, fs, rfl, -, hcache, -⟩ :=
        Op.exec_introduce hs hd (Set.notMem_empty _) hw
      · exact absurd (he ▸ trivial) hc
      · rw [World.Tallies, hcache]
        exact ⟨rfl, rfl⟩
    have htally : t.world.Tallies t'.world :=
      h.keeps local_tallies hs hx hu (fun h => absurd h ha) hintroduce
    exact ⟨htally.2, .inr ⟨hc, htally.1⟩⟩

theorem counted_ageless : x.Counted s.ageless ↔ x.Counted s :=
  ⟨fun h => ⟨sound_ageless.mp h.sound, h.tidy, h.gate, h.finite, h.count⟩,
    fun h => ⟨sound_ageless.mpr h.sound, h.tidy, h.gate, h.finite, h.count⟩⟩

theorem Op.Parade.counted (hs : s.Discreet) (hx : (w.scene d).Counted s) (h : Parade s w w') :
    (w'.scene d).Counted s := by
  obtain ⟨ds, hpath, hds, -⟩ : Incident s.ageless (w.scene d) (.ok ()) (w'.scene d) :=
    h.ageless.incident hs.ageless nofun
  have htally : w.Tallies w' := h.keeps_all (fun key => (local_tallies key).harmless) hs
  have hx' := counted_ageless.mpr hx
  have hu := not_tampered_of_incidental hds
  refine counted_ageless.mp (hpath.counted hx' hu rfl
    (fun k hk => hpath.unlost_of_awaits hx' hu (hk.awaited hx.sound rfl)) ?_ htally.2)
  rw [countP_enters_incidental hds]
  exact htally.1

theorem Op.expirePassivated_counted (hd : w.store.Deletes) (hx : (w.scene d).Counted s)
    {r : Except CacheError Nat} (h : exec (expirePassivated s) w = (r, w')) :
    (w'.scene d).Counted s := by
  obtain ⟨hpath, -⟩ := exec_expirePassivated (d := d) h
  obtain ⟨keys, hnodup, hthere, hscene⟩ := exec_expirePassivated_of_deletes hd h
  exact hx.purge hnodup hthere (hscene d) (hpath.sound hx.sound)
    (hpath.tidy hx.sound List.not_mem_nil hx.tidy)

/-- The event says that a callback failed in `Op.settle` of a key that had no record any more: its
record was purged meanwhile and counted in `expired`. -/
def Traffic.Forfeits (t : Traffic σ ι ω) : Traffic.Event σ ι → Prop
  | .answered (.get key) (.error (.lifecycle _ _ _)) =>
    .settling key ∈ t.tasks ∧ t.world.store.contents key = none
  | _ => False

/-- A step after which each awaited key is still awaited loses no key that is `.coming none`. -/
theorem Step.unlost_of_awaits (hs : s.Discreet) (hx : t.scene.Counted s) (h : Step s t event t')
    (hu : event ≠ .tampered)
    (hstays : ∀ task ∈ t.tasks, ∀ k, task.awaits k = true →
      ∃ task' ∈ t'.tasks, task'.awaits k = true) :
    ∃ ds, Path s t.scene ds t'.scene ∧ Account s t.scene event ds ∧
      ∀ k, Lies t.scene k (.coming none) → .lost k ∈ ds → t.Forfeits event := by
  obtain ⟨ds, hpath, haccount⟩ := h.path hs hx.sound
  refine ⟨ds, hpath, haccount, fun k hk hlost => ?_⟩
  obtain ⟨task, htask, ha⟩ := hk.awaited hx.sound rfl
  exact absurd hlost (hpath.unlost_of_awaits hx (haccount.untampered hu) (hstays task htask k ha))

/-- A step loses a key that is `.coming none` only if the event `Forfeits`. -/
theorem Step.forfeits (hs : s.Discreet) (hx : t.scene.Counted s) (h : Step s t event t')
    (hu : event ≠ .tampered) :
    ∃ ds, Path s t.scene ds t'.scene ∧ Account s t.scene event ds ∧
      ∀ k, Lies t.scene k (.coming none) → .lost k ∈ ds → t.Forfeits event := by
  have hunlost := h.unlost_of_awaits hs hx hu
  have hrest : ∀ {task : Task ι} {rest : Multiset (Task ι)}, t.tasks = task ::ₘ rest →
      ∀ task' ∈ t.tasks, task' = task ∨ task' ∈ rest := fun h task' htask' =>
    Multiset.mem_cons.mp (h ▸ htask')
  cases h with
  | pass | tamper | edit | serve | finish | miss =>
    exact hunlost fun task htask k ha => ⟨task, htask, ha⟩
  | @get key answer =>
    refine hunlost fun task htask k ha => ⟨task, ?_, ha⟩
    cases answer <;> exact htask
  | fetch | create =>
    exact hunlost fun task htask k ha => ⟨task, Multiset.mem_cons_of_mem htask, ha⟩
  | @look task rest _ found _ h =>
    refine hunlost fun task' htask' k ha => ?_
    obtain rfl | hmem := hrest h task' htask'
    · exact ⟨_, Multiset.mem_cons_self _ _, (task'.awaits_after found k).trans ha⟩
    · exact ⟨task', Multiset.mem_cons_of_mem hmem, ha⟩
  | introduce h =>
    refine hunlost fun task' htask' k ha => ?_
    obtain rfl | hmem := hrest h task' htask'
    · exact absurd ha Bool.false_ne_true
    · exact ⟨task', hmem, ha⟩
  | fail h hd hw hw' =>
    obtain ⟨ds, hpath, hwithdraw, haccount⟩ := Step.fail_path hs hx.sound h hd hw hw'
    refine ⟨ds, hpath.still hwithdraw, haccount, fun k hk hlost => ?_⟩
    exact absurd hlost (hpath.unlost_of_awaits hx (haccount.untampered nofun) (hk.awaited hx.sound rfl))
  | @giveUp task _ _ _ h hd hw =>
    have hmem : task ∈ t.tasks := h ▸ Multiset.mem_cons_self _ _
    exact ⟨[], Task.withdraw_path h hd hw, .noRoom hmem (by simp) nofun (.inr (.inr rfl)),
      fun k _ hlost => absurd hlost List.not_mem_nil⟩
  | @settle key rest answer w h hw =>
    have hmem : .settling key ∈ t.tasks := h ▸ Multiset.mem_cons_self _ _
    obtain ⟨slot, hslot, hp, -⟩ := hx.sound.at_task h (decide_eq_true rfl)
    obtain ⟨state, rfl, -, hpath⟩ | ⟨failure, ds, rfl, -, hfallen, hpath⟩ :=
      Op.exec_settle_checkOut (d := t.toDesk) hs h hslot hp hw
    · exact ⟨_, hpath, .got [⟨.preActivate, key, false⟩, ⟨.postActivate, key, false⟩,
        ⟨.preInvoke, key, false⟩] (by simp), fun k _ hlost => by simp at hlost⟩
    · refine ⟨_, hpath, .fallen hfallen, fun k hk hlost => ?_⟩
      cases hfallen with
      | lost fs =>
        obtain rfl : k = key := by simpa using hlost
        cases hk with
        | coming _ _ hr => exact ⟨hmem, hr⟩
      | spoiled | missed | failed => simp at hlost

/-- Each step keeps `Counted`, unless its event `Forfeits`. -/
theorem Step.counted (hs : s.Discreet) (hd : t.world.store.Deletes) (hx : t.scene.Counted s)
    (h : Step s t event t') (hu : event ≠ .tampered) (hforfeits : ¬t.Forfeits event) :
    t'.scene.Counted s := by
  by_cases ha : event.Ages
  · cases h with
    | @serve request answer w hq hw =>
      have hmeet : (w.scene t.toDesk).Counted s → _ := fun hcounted =>
        counted_ageless.mp ((Request.meet (s := s.ageless) request _).counted
          (counted_ageless.mpr hcounted) (by simp) rfl (by simp) rfl rfl)
      refine hmeet ?_
      cases request with
      | sweep =>
        obtain ⟨r, hw, -⟩ := exec_bind_pure hw
        obtain ⟨-, w₁, answer', hparade, hexpire⟩ :=
          Op.exec_sweep_cases (d := t.toDesk) hs hx.sound hw
        have hd' := hd.moves (hparade.keeps_all (fun _ => Op.allows_moves _) hs)
        exact Op.expirePassivated_counted hd' (hparade.counted hs hx) hexpire
      | expirePassivated =>
        obtain ⟨r, hw, -⟩ := exec_bind_pure hw
        exact Op.expirePassivated_counted hd hx hw
      | _ => exact ha.elim
    | @fail task | @giveUp task => cases task <;> exact ha.elim
    | _ => exact ha.elim
  · obtain ⟨ds, hpath, haccount, hlost⟩ :=
      (h.ageless ha).forfeits hs.ageless (counted_ageless.mpr hx) hu
    obtain ⟨hexpired, htally⟩ := h.tally hs hx.sound hu ha
    refine counted_ageless.mp (hpath.counted (counted_ageless.mpr hx) (haccount.untampered hu) rfl
      (fun k hk hmem => hforfeits (hlost k hk hmem)) ?_ hexpired)
    obtain ⟨hc, henters⟩ | ⟨hc, henters⟩ := haccount.enters
    · rw [henters]
      exact htally.elim (·.2) fun h => absurd hc h.1
    · rw [henters]
      exact htally.elim (fun h => absurd h.1 hc) (·.2)

/-! ## Numbers -/

/-- The slots that satisfy `q` are as many as the keys with such a slot. -/
theorem Cache.ncard_slots {c : Cache σ} (hc : c.Distinct) (q : Slot σ → Bool) :
    { key | ∃ slot, c.slot? key = some slot ∧ q slot = true }.ncard = c.slots.countP fun e => q e.2 := by
  rw [← Assoc.ncard_names hc]
  congr 1
  ext key
  constructor
  · rintro ⟨slot, hslot, hq⟩
    exact ⟨(key, slot), mem_of_slot? hslot, rfl, hq⟩
  · rintro ⟨⟨_, slot⟩, hmem, rfl, hq⟩
    exact ⟨slot, slot?_of_mem hc hmem, hq⟩

/-- `residents` are the keys whose slots are `reserved`, and the keys that are tracked. -/
theorem Sound.mem_residents (hx : Sound s x) (k : Key) :
    (k ∈ x.residents ↔ ∃ slot, x.cache.slot? k = some slot ∧ slot.reserved = true) ∧
      (k ∈ x.residents ↔ k ∈ x.cache.usage.entries.map (·.key)) := by
  rw [Usage.mem_keys_iff]
  cases hslot : x.cache.slot? k with
  | none =>
    rw [(hx.at_none hslot).1]
    simp [Scene.residents, hslot]
  | some slot =>
    obtain ⟨state, hr⟩ | ho | hp := hx.kinds hslot
    · obtain ⟨⟨since, hu, -⟩, -⟩ := hx.at_ready hslot hr
      rw [hu]
      simp [Scene.residents, hslot, hr.stage, hr.reserved]
    · obtain ⟨⟨e, hu, -⟩, -⟩ := hx.at_out hslot ho
      rw [hu]
      simp [Scene.residents, hslot, ho.stage, ho.reserved]
    · have hone : x.comers k ≠ 0 := (hx.placeholder_of_held hslot hp.held).2.trans_ne Nat.one_ne_zero
      obtain ⟨-, -, -, hnone, -⟩ := (hx.stands k).of_comer hone
      rw [hnone]
      simp [Scene.residents, hslot, hp.stage, hp.reserved]

/-- The number of slots that are no placeholders. -/
def Cache.sessions (c : Cache σ) : Nat := c.slots.countP fun e => e.2.stage ≠ .passivated

theorem Sound.ncard_residents (hx : Sound s x) :
    x.residents.ncard = x.cache.sessions ∧ x.residents.ncard = x.cache.reservedCount ∧
      x.residents.ncard = x.cache.usage.size := by
  refine ⟨?_, ?_, ?_⟩
  · rw [Cache.sessions, ← Cache.ncard_slots hx.distinct fun slot => slot.stage ≠ .passivated]
    simp [Scene.residents]
  · rw [Cache.reservedCount, ← Cache.ncard_slots hx.distinct fun slot => slot.reserved]
    exact congrArg Set.ncard (Set.ext fun k => (hx.mem_residents k).1)
  · have hkeys : x.residents = ((x.cache.usage.entries.map (·.key)).toFinset : Finset Key) :=
      Set.ext fun k => (hx.mem_residents k).2.trans (by simp)
    rw [hkeys, Set.ncard_coe_finset, List.toFinset_card_of_nodup hx.tracked, List.length_map]
    rfl

/-- The number of keys with a record. -/
noncomputable def Store.sessions (store : Store) : Nat := { key | store.contents key ≠ none }.ncard

/-- The statistics add up: `created = removed + expired + sessions` in memory and in the store, and
`resident = available + inUse` with the units of the tasks. -/
structure Traffic.Conserved (s : Surroundings σ ι ω) (t : Traffic σ ι ω) : Prop where
  finite : { key | t.world.store.contents key ≠ none }.Finite
  created : (Stats.ofCache s.settings t.world.cache).counters.created =
    (Stats.ofCache s.settings t.world.cache).counters.removed +
      (Stats.ofCache s.settings t.world.cache).counters.expired +
      t.world.cache.sessions + t.world.store.sessions
  resident : (Stats.ofCache s.settings t.world.cache).resident =
    ((Stats.ofCache s.settings t.world.cache).available +
      (Stats.ofCache s.settings t.world.cache).inUse + t.tasks.countP (·.hasUnit) : Nat)
  /-- Where no task is under way, `sessions` is the number of slots, and `resident = available +
  inUse`. -/
  idle : t.Idle → t.world.cache.sessions = t.world.cache.keys.length ∧
    (Stats.ofCache s.settings t.world.cache).resident =
      ((Stats.ofCache s.settings t.world.cache).available +
        (Stats.ofCache s.settings t.world.cache).inUse : Nat)

theorem Scene.Counted.conserved (hx : t.scene.Counted s) : t.Conserved s := by
  have hfinite : { key | t.world.store.contents key ≠ none }.Finite :=
    hx.finite.subset Set.subset_union_right
  have hsplit : t.scene.population.ncard = t.scene.residents.ncard + t.world.store.sessions := by
    refine Set.ncard_union_eq (Set.disjoint_left.mpr fun k hk hr => ?_)
      (hx.finite.subset Set.subset_union_left) hfinite
    obtain ⟨p, hp⟩ := hx.tidy k
    exact hp.not_resident hr hk
  obtain ⟨hsessions, hreserved, hsize⟩ := hx.sound.ncard_residents
  have hresident : t.world.cache.occupied =
      (t.world.cache.usage.idleCount + t.world.cache.usage.inUseCount +
        t.tasks.countP (·.hasUnit) : Nat) := by
    rw [Usage.idleCount_add_inUseCount, ← show _ = t.world.cache.usage.size from hsize, hreserved]
    exact hx.sound.occupied
  refine ⟨hfinite, ?_, hresident, fun hidle => ?_⟩
  · rw [Nat.add_assoc, ← show _ = t.world.cache.sessions from hsessions, ← hsplit]
    exact hx.count
  · have hunits : t.tasks.countP (·.hasUnit) = 0 := by
      rw [show t.tasks = 0 from hidle, Multiset.countP_zero]
    rw [hunits, Nat.add_zero] at hresident
    refine ⟨?_, hresident⟩
    have hoccupied := hx.sound.occupied_of_idle hidle
    rw [hresident, Usage.idleCount_add_inUseCount, Nat.cast_inj] at hoccupied
    exact (hsessions.symm.trans hsize).trans hoccupied

theorem Traffic.Fresh.counted (ht : t.Fresh s) (hempty : ∀ k, t.world.store.contents k = none)
    (hd : t.world.store.Deletes) : t.scene.Counted s := by
  have hnone : t.scene.population = ∅ := by
    refine Set.eq_empty_iff_forall_notMem.mpr fun k hk => ?_
    obtain ⟨slot, hslot, -⟩ | hr := hk
    · change t.world.cache.slot? k = some slot at hslot
      rw [ht.cache] at hslot
      cases hslot
    · exact hr (hempty k)
  refine ⟨ht.sound, ht.tidy, fun k n => hd.gate n k, by simp [hnone], ?_⟩
  · change t.world.cache.counters.created =
      t.world.cache.counters.removed + t.world.cache.counters.expired + _
    rw [hnone, Set.ncard_empty, ht.cache]
    rfl

/-! ## Runs -/

/-- A run all of whose events satisfy `P`. -/
inductive Course (s : Surroundings σ ι ω) (P : Traffic σ ι ω → Traffic.Event σ ι → Prop) :
    Traffic σ ι ω → List (Traffic.Event σ ι) → Traffic σ ι ω → Prop where
  | nil {t : Traffic σ ι ω} : Course s P t [] t
  | snoc {t t' t'' : Traffic σ ι ω} {events : List (Traffic.Event σ ι)} {event : Traffic.Event σ ι}
      (h : Course s P t events t') (h' : Step s t' event t'') (hp : P t' event) :
      Course s P t (events ++ [event]) t''

theorem Run.course {P : Traffic σ ι ω → Traffic.Event σ ι → Prop} (h : Run s t events t')
    (hp : ∀ event ∈ events, ∀ t, P t event) : Course s P t events t' := by
  induction h with
  | nil => exact .nil
  | snoc _ hstep ih =>
    exact .snoc (ih fun event he => hp event (List.mem_append_left _ he)) hstep
      (hp _ (List.mem_append_right _ List.mem_cons_self) _)

theorem Course.counted (hs : s.Discreet) (hd : t.world.store.Deletes) (hx : t.scene.Counted s)
    (h : Course s (fun t event => ¬t.Forfeits event) t events t') (hu : Undisturbed events) :
    t'.world.store.Deletes ∧ t'.scene.Counted s := by
  induction h with
  | nil => exact ⟨hd, hx⟩
  | @snoc _ _ _ event _ hstep hforfeits ih =>
    obtain ⟨hd, hx⟩ := ih fun he => hu (List.mem_append_left _ he)
    have hne : event ≠ .tampered := fun he =>
      hu (List.mem_append_right _ (List.mem_singleton.mpr he.symm))
    exact ⟨hd.moves (hstep.moves hs hx.sound hne), hstep.counted hs hd hx hne hforfeits⟩

/-- Over a store that starts empty and whose deletes never fail, the statistics are `Conserved` at
each point of a run, whatever callbacks and other calls fail, as long as no event `Forfeits`. -/
theorem Course.conservation (hs : s.Discreet) (ht : t.Fresh s)
    (hempty : ∀ k, t.world.store.contents k = none) (hd : t.world.store.Deletes)
    (h : Course s (fun t event => ¬t.Forfeits event) t events t') (hu : Undisturbed events) :
    t'.Conserved s :=
  (h.counted hs hd (ht.counted hempty hd) hu).2.conserved

/-- Surroundings of a cache with `maxSize := 1` and a short `removalTimeout`. -/
def Surroundings.brief (fails : Phase → Key → Bool) : Surroundings Bool Bool Journal :=
  .recording { maxSize := 1, removalTimeout := some (.ofMillis 10) } .flag fails .ofNat

/-- A session is passivated and expires: the statistics are `Conserved`. -/
theorem Course.conservation_of_expired :
    ∃ events t', Course (.brief fun _ _ => false) (fun t event => ¬t.Forfeits event)
        (.opened (.brief fun _ _ => false) (.empty fun _ _ => none) ⟨0⟩ {}) events t' ∧
      t'.world.cache.counters = { created := 1, expired := 1, passivated := 1 } ∧
      t'.Conserved (.brief fun _ _ => false) := by
  have h₁ := (Run.nil (s := .brief fun _ _ => false)
    (t := .opened (.brief fun _ _ => false) (.empty fun _ _ => none) ⟨0⟩ {})).thenCreate true
      (by decide) (fun hk => hk rfl)
  have h₂ := h₁.thenServe .passivateAll trivial
  have h₃ := h₂.snoc (.pass (show _ ≤ (⟨20000000⟩ : Instant) by decide) (by decide))
  have h₄ := h₃.thenServe .expirePassivated trivial
  have hcourse : Course _ (fun t event => ¬t.Forfeits event) _ _ _ :=
    h₄.course (by simp [Traffic.Forfeits])
  have hconserved := Course.conservation Surroundings.recording_discreet
    (Traffic.opened_fresh _ _ _ _) (fun _ => rfl) (Store.deletes_of_memory (fun _ _ => rfl) rfl)
    hcourse (by simp [Undisturbed])
  exact ⟨_, _, hcourse, by decide +kernel, hconserved⟩

/-- A record is purged while its key is `.coming`, then `.preActivate` fails: `expired` and
`removed` both count the session. -/
theorem Run.conservation_upset :
    ∃ events t', Run (.brief failsComing)
        (.opened (.brief failsComing) (.empty fun _ _ => none) ⟨0⟩ {}) events t' ∧
      Undisturbed events ∧ t'.Idle ∧
      t'.world.cache.counters = { created := 1, removed := 1, expired := 1, passivated := 1 } ∧
      ¬t'.Conserved (.brief failsComing) := by
  -- What follows from the numbers does not depend on how they came about.
  suffices ∃ events t', Run (.brief failsComing)
      (.opened (.brief failsComing) (.empty fun _ _ => none) ⟨0⟩ {}) events t' ∧
      Undisturbed events ∧ t'.Idle ∧
      t'.world.cache.counters = { created := 1, removed := 1, expired := 1, passivated := 1 } by
    obtain ⟨events, t', h, hu, hidle, hcounters⟩ := this
    refine ⟨events, t', h, hu, hidle, hcounters, fun hconserved => ?_⟩
    have hcreated := hconserved.created
    simp only [Stats.ofCache, hcounters] at hcreated
    omega
  have h₁ := (Run.nil (s := .brief failsComing)
    (t := .opened (.brief failsComing) (.empty fun _ _ => none) ⟨0⟩ {})).thenCreate true
      (by decide) (fun hk => hk rfl)
  have h₂ := h₁.thenServe .passivateAll trivial
  have h₃ := h₂.snoc (.fetch
    (fun hl : Traffic.Linked _ (.ofNat 0) => absurd hl Bool.false_ne_true) rfl)
  have h₄ := h₃.snoc (.pass (show _ ≤ (⟨20000000⟩ : Instant) by decide) (by decide))
  have h₅ := h₄.thenServe .expirePassivated trivial
  have h₆ := h₅.snoc (.look (show _ = Task.fetching (.ofNat 0) .never ::ₘ 0 from rfl) rfl
    (exec_look_of_room (by decide +kernel) .never))
  have h₇ := h₆.snoc (.settle (show _ = Task.settling (.ofNat 0) ::ₘ 0 from rfl) rfl)
  exact ⟨_, _, h₇, by simp [Undisturbed], rfl, by decide +kernel⟩

end SessionCache
