import SessionCache.Proofs.Refinement
import SessionCache.Proofs.Traffic.Departing

/-!
# The last state of a session

What a session is worth is the state that it had last: the one that it was made with, or the one
that a caller gave it back with since. A `Chronicle` is a run that keeps account of these states. On
a store that is only written to through the cache, a session that is ready has its last state, and
the record of one that is in the store can be read as that state.

* `Traffic.remembered`: what a step does to the last states.
* `Place.Recalls`: the places of a session, by its last state.
* `Hop.recalls`, `Step.recalls`, `Chronicle.recalls`: hops, steps and runs leave sessions with their
  last states.
-/

namespace SessionCache

variable {σ ι ω : Type} {s : Surroundings σ ι ω} {x x' : Scene σ ι ω} {ds : List (Deed σ)}
  {t t' : Traffic σ ι ω} {event : Traffic.Event σ ι} {events : List (Traffic.Event σ ι)}
  {k key : Key} {slot : Slot σ} {state : σ} {p p' : Place σ} {last last' : Key → Option σ}

/-! ## Keeping account -/

/-- The last states after a step with this event, which led to `t`: `create` sets that of the fresh
key, `finish` that of its key, and others keep it. -/
def Traffic.remembered (t : Traffic σ ι ω) (last : Key → Option σ) :
    Traffic.Event σ ι → Key → Option σ
  | .answered (.create _) (.ok (.created key)) =>
    Function.update last key ((t.world.cache.slot? key).bind (·.payload))
  | .answered (.finish key state) (.ok _) => Function.update last key (some state)
  | _ => last

/-- A run, with the last state of each key before and after it. -/
inductive Chronicle (s : Surroundings σ ι ω) : Traffic σ ι ω → (Key → Option σ) →
    List (Traffic.Event σ ι) → Traffic σ ι ω → (Key → Option σ) → Prop where
  | nil {t : Traffic σ ι ω} {last : Key → Option σ} : Chronicle s t last [] t last
  | snoc {t t' t'' : Traffic σ ι ω} {events : List (Traffic.Event σ ι)} {event : Traffic.Event σ ι}
      {last last' : Key → Option σ} (h : Chronicle s t last events t' last')
      (h' : Step s t' event t'') :
      Chronicle s t last (events ++ [event]) t'' (t''.remembered last' event)

theorem Chronicle.run (h : Chronicle s t last events t' last') : Run s t events t' := by
  induction h with
  | nil => exact .nil
  | snoc _ hstep ih => exact ih.snoc hstep

/-- For each run and each `last` there is a `Chronicle`. -/
theorem Run.chronicle (h : Run s t events t') (last : Key → Option σ) :
    ∃ last', Chronicle s t last events t' last' := by
  induction h with
  | nil => exact ⟨last, .nil⟩
  | snoc _ hstep ih =>
    obtain ⟨last', h⟩ := ih
    exact ⟨_, h.snoc hstep⟩

/-! ## What deeds do to last states -/

namespace Deed

/-- The last state of a key after a deed about it. -/
def leaves (last? : Option σ) : Deed σ → Option σ
  | .entered _ state | .returned _ state => some state
  | .removed _ => none
  | _ => last?

/-- Whether a deed sets the last state: `entered` and `returned` do. -/
def brings : Deed σ → Bool
  | .entered _ _ | .returned _ _ => true
  | _ => false

@[simp] theorem foldl_leaves_fired (last? : Option σ) (fs : List Firing) :
    (fs.map Deed.fired).foldl leaves last? = last? := by
  induction fs with
  | nil => rfl
  | cons f fs ih => exact ih

/-- Deeds that do not set it leave the last state, or make it `none`. -/
theorem foldl_leaves_of_not_brings (h : ∀ d ∈ ds, d.brings = false) (last? : Option σ) :
    ds.foldl leaves last? = last? ∨ ds.foldl leaves last? = none := by
  induction ds generalizing last? with
  | nil => exact .inl rfl
  | cons d ds ih =>
    have hd := h d List.mem_cons_self
    have hrest := ih fun d hmem => h d (List.mem_cons_of_mem _ hmem)
    rw [List.foldl_cons]
    cases d with
    | entered | returned => cases hd
    | removed => exact .inr ((hrest none).elim id id)
    | _ => exact hrest last?

theorem not_brings_of_incidental (h : ∀ d ∈ ds, d.Incidental) : ∀ d ∈ ds, d.brings = false := by
  intro d hmem
  cases d with
  | entered | returned => exact (h _ hmem).elim
  | _ => rfl

theorem not_brings_fired (fs : List Firing) :
    ∀ d ∈ (fs.map .fired : List (Deed σ)), d.brings = false := by
  intro d hmem
  obtain ⟨f, -, rfl⟩ := List.mem_map.mp hmem
  rfl

end Deed

/-! ## Places -/

/-- Where a key with this last state may be: a ready slot has that state, and a record decodes to
it. Other places may have any last state. -/
inductive Place.Recalls (codec : Codec σ) (k : Key) : Option σ → Place σ → Prop where
  | unmet (last? : Option σ) : Recalls codec k last? .unmet
  | gone (last? : Option σ) : Recalls codec k last? .gone
  | stored {bytes : ByteArray} {state : σ} (h : Store.stateOf codec k bytes = .ok state) :
      Recalls codec k (some state) (.stored bytes)
  | coming {bytes : ByteArray} {state : σ} (h : Store.stateOf codec k bytes = .ok state) :
      Recalls codec k (some state) (.coming (some bytes))
  | expired (last? : Option σ) : Recalls codec k last? (.coming none)
  | ready (state : σ) : Recalls codec k (some state) (.ready state)
  | out (last? : Option σ) (pending : Bool) : Recalls codec k last? (.out pending)

namespace Place.Recalls

variable {codec : Codec σ} {last? : Option σ} {bytes? bytes?' : Option ByteArray}

/-- A place that fits `none` fits any last state. -/
theorem of_none (h : p.Recalls codec k none) (last? : Option σ) : p.Recalls codec k last? := by
  cases h with
  | unmet => exact .unmet _
  | gone => exact .gone _
  | expired => exact .expired _
  | out => exact .out _ _

theorem ofRecord (h : (Place.coming bytes?).Recalls codec k last?) :
    (Place.ofRecord bytes?).Recalls codec k last? := by
  cases h with
  | coming h => exact .stored h
  | expired => exact .gone _

theorem drops (h : (Place.ofRecord bytes? : Place σ).Recalls codec k last?)
    (hd : x.Drops k bytes? bytes?') : (Place.ofRecord bytes?').Recalls codec k last? := by
  obtain rfl | ⟨rfl, -⟩ := hd
  · exact .gone _
  · exact h

end Place.Recalls

/-- A hop leads a key to a place that fits its last state afterwards. -/
theorem Hop.recalls (hs : s.Calm) (hf : s.codec.Faithful) (h : Hop s x k p ds p') (hx : x.Dated)
    {last? : Option σ} (hp : p.Recalls s.codec k last?) :
    p'.Recalls s.codec k (ds.foldl Deed.leaves last?) := by
  cases h with
  | still => exact hp
  | meet => exact .gone _
  | attendStored | attendComing =>
    rw [Deed.foldl_leaves_fired]
    exact hp
  | purge => exact .gone _
  | purgeComing => exact .expired _
  | announce =>
    cases hp with
    | stored h => exact .coming h
  | withdraw => exact hp.ofRecord
  | settle hb ht =>
    cases hp with
    | coming h =>
      cases h.symm.trans hb
      cases hs.turns _ _ _ _ ht
      exact .ready _
  | loseComing hd => exact hp.ofRecord.drops hd
  | enter => exact .ready _
  | unmade => exact .gone _
  | checkOut => exact .out _ _
  | park ht hv =>
    cases hp
    cases hs.turns _ _ _ _ ht
    exact .stored (Store.stateOf_encode hx.1 hx.2 (hf.roundTrips _ _ hv) (hf.shallow _ _ hv))
  | stay ht ht' =>
    cases hp
    cases hs.turns _ _ _ _ ht
    cases hs.turns _ _ _ _ ht'
    exact .ready _
  | leave | lose | leaveOut | loseOut | erase | spoil => exact .gone _
  | defer => exact .out _ _
  | giveIn => exact .ready _
  | @loseParked _ bytes _ hd =>
    have hrecord : (Place.ofRecord (some bytes)).Recalls s.codec k last? := hp
    exact hrecord.drops hd

/-- Each key lies in a place that fits its last state. -/
def Scene.Recalls (s : Surroundings σ ι ω) (last : Key → Option σ) (x : Scene σ ι ω) : Prop :=
  ∀ k, ∃ p, Lies x k p ∧ p.Recalls s.codec k (last k)

/-- A path leads each key to a place that fits its last state after the deeds about it. -/
theorem Path.recalls (hs : s.Calm) (hf : s.codec.Faithful) (hx : Sound s x) (h : Path s x ds x')
    (hu : .tampered ∉ ds) (hnow : x.Dated) (hl : x.Recalls s last) (k : Key) :
    ∃ p, Lies x' k p ∧ p.Recalls s.codec k ((about k ds).foldl Deed.leaves (last k)) := by
  obtain ⟨p, hp, hrecalls⟩ := hl k
  exact h.follow hx hu hp
    (P := fun q es => q.Recalls s.codec k (es.foldl Deed.leaves (last k))) hrecalls
    fun {y q q' es es'} _ hpasses hhop hq => by
      rw [List.foldl_append]
      exact hhop.recalls hs hf ⟨Int.le_trans hnow.1 hpasses.1, hpasses.2 hnow.2⟩ hq

namespace Scene.Recalls

theorem of_ready (hl : x.Recalls s last) (hs : x.cache.slot? k = some slot)
    (hr : slot.IsReady state) : last k = some state := by
  obtain ⟨p, hp, hrecalls⟩ := hl k
  obtain ⟨rfl, -⟩ := hp.of_ready hs hr
  generalize last k = last? at hrecalls ⊢
  cases hrecalls
  rfl

/-- A record decodes to the last state of its key. -/
theorem of_record (hl : x.Recalls s last) {bytes : ByteArray} (hr : x.contents k = some bytes) :
    ∃ state, last k = some state ∧ Store.stateOf s.codec k bytes = .ok state := by
  obtain ⟨p, hp, hrecalls⟩ := hl k
  generalize last k = last? at hrecalls ⊢
  cases hp with
  | unmet _ hn | gone _ hn | ready _ _ hn | out _ _ _ hn => exact nomatch hr.symm.trans hn
  | stored _ hr' =>
    obtain rfl := Option.some.inj (hr.symm.trans hr')
    cases hrecalls with
    | stored h => exact ⟨_, rfl, h⟩
  | coming _ _ hr' =>
    obtain rfl := hr.symm.trans hr'
    cases hrecalls with
    | coming h => exact ⟨_, rfl, h⟩

/-- A path without deeds that set a last state keeps `Recalls` as it is. -/
theorem of_not_brings (hs : s.Calm) (hf : s.codec.Faithful) (hx : Sound s x) (hl : x.Recalls s last)
    (h : Path s x ds x') (hu : .tampered ∉ ds) (hnow : x.Dated)
    (hds : ∀ d ∈ ds, d.brings = false) : x'.Recalls s last := by
  intro k
  obtain ⟨p, hp, hrecalls⟩ := h.recalls hs hf hx hu hnow hl k
  have habout : ∀ d ∈ about k ds, d.brings = false := fun d hmem =>
    hds d (List.mem_filter.mp hmem).1
  obtain hsame | hnone := Deed.foldl_leaves_of_not_brings habout (last k)
  · exact ⟨p, hp, hsame ▸ hrecalls⟩
  · exact ⟨p, hp, (hnone ▸ hrecalls).of_none _⟩

/-- A path that ends in one deed after firings changes the last state of one key. -/
theorem of_brought (hs : s.Calm) (hf : s.codec.Faithful) (hx : Sound s x) (hl : x.Recalls s last)
    (fs : List Firing) {d : Deed σ} (hd : d.key? = some key)
    (h : Path s x (fs.map .fired ++ [d]) x') (hnow : x.Dated) :
    x'.Recalls s (Function.update last key (d.leaves (last key))) := by
  have hu : .tampered ∉ fs.map .fired ++ [d] := by
    intro hmem
    obtain hmem | hmem := List.mem_append.mp hmem
    · exact not_tampered_fired fs hmem
    · exact nomatch (List.mem_singleton.mp hmem) ▸ hd
  intro k
  obtain ⟨p, hp, hrecalls⟩ := h.recalls hs hf hx hu hnow hl k
  refine ⟨p, hp, ?_⟩
  rw [about_append, about_fired, List.foldl_append, Deed.foldl_leaves_fired] at hrecalls
  by_cases hk : k = key
  · subst hk
    rw [about_self (by simpa using hd)] at hrecalls
    rwa [Function.update_self]
  · rw [about_other (by simpa using hd) (Ne.symm hk)] at hrecalls
    rwa [Function.update_of_ne hk]

end Scene.Recalls

/-! ## Steps -/

/-- After `.created key`, the slot of `key` is ready. -/
theorem Step.of_created (hs : s.Discreet) {args : ι} (h : Step s t event t')
    (he : event = .answered (.create args) (.ok (.created key))) :
    ∃ slot state, t'.world.cache.slot? key = some slot ∧ slot.IsReady state ∧
      Path s t.scene [.fired ⟨.postConstruct, key, false⟩, .entered key state] t'.scene := by
  cases h with
  | @serve request _ _ hq =>
    cases request with
    | create => exact hq.elim
    | _ => cases he
  | @fail task | @giveUp task => cases Traffic.Event.answered.inj he |>.2
  | @introduce args rest answer w h hk hw =>
    obtain ⟨_, state', slot, rfl, -, -, hr, -, hcache, hpath⟩ | ⟨_, _, rfl, -⟩ :=
      Op.exec_introduce (d := t.toDesk) hs h hk hw
    · cases he
      refine ⟨slot, state', ?_, hr, hpath⟩
      change w.cache.slot? _ = some slot
      rw [hcache]
      exact Cache.link_self _ _ slot
    · cases he
  | _ => cases he

/-- An event other than `.created` and `finish` has no deed that sets a last state. -/
theorem Account.not_brings (h : Account s x event ds)
    (hcreated : ∀ args key, event ≠ .answered (.create args) (.ok (.created key)))
    (hreturned : ∀ key state answer, event ≠ .answered (.finish key state) answer) :
    ∀ d ∈ ds, d.brings = false := by
  have hlast : ∀ {fs : List Firing} {d : Deed σ}, d.brings = false →
      ∀ e ∈ fs.map .fired ++ [d], e.brings = false := fun {fs d} hd e hmem => by
    obtain hmem | hmem := List.mem_append.mp hmem
    · exact Deed.not_brings_fired fs e hmem
    · exact (List.mem_singleton.mp hmem) ▸ hd
  cases h with
  | quiet h | noRoom _ h | upkeep _ h => exact Deed.not_brings_of_incidental h
  | created => exact absurd rfl (hcreated _ _)
  | unmade | got => exact hlast rfl
  | fallen h =>
    cases h with
    | lost fs =>
      intro d hmem
      obtain hmem | hmem := List.mem_append.mp hmem
      · exact Deed.not_brings_fired fs d hmem
      · obtain rfl | rfl : d = _ ∨ d = _ := by simpa using hmem
        all_goals rfl
    | spoiled | missed => simp [Deed.brings]
    | failed => exact Deed.not_brings_fired _
  | returned | lostOut | left => exact absurd rfl (hreturned _ _ _)
  | refused fs => exact Deed.not_brings_fired fs
  | tampered | absent | busy | vain | deferred | removed | spoiled | nothing | peeked | queried =>
    simp [Deed.brings]

namespace Scene.Recalls

/-- `finish key state` sets the last state of `key` to `state`, or the session is gone. -/
theorem finish (hs : s.Calm) (hf : s.codec.Faithful) (hx : Sound s t.scene) (hnow : t.scene.Dated)
    (hl : t.scene.Recalls s last) {rest : Multiset (Key × σ)} {answer : Except CacheError Unit}
    {w : World σ ω} (h : t.handles = (key, state) ::ₘ rest)
    (hw : exec (Op.finish s key state) t.world = (answer, w)) (t' : Traffic σ ι ω) :
    (w.scene { t.toDesk with handles := rest }).Recalls s
      (t'.remembered last (.answered (.finish key state) (answer.map fun _ => .done))) := by
  obtain ⟨slot, hslot, ho, -⟩ := hx.at_handle h
  obtain ⟨-, failed, -, -, hpath⟩ | ⟨-, rfl, state', -, hturns, -, -, hpath⟩ |
      ⟨-, message, rfl, -, hpath⟩ :=
    Op.exec_finish (d := t.toDesk) hs.discreet h hslot ho hw
  · have hremoved := hl.of_brought hs hf hx [_] rfl hpath hnow
    intro k
    obtain ⟨p, hp, hrecalls⟩ := hremoved k
    refine ⟨p, hp, ?_⟩
    by_cases hk : k = key
    · subst hk
      rw [Function.update_self] at hrecalls
      exact hrecalls.of_none _
    · rw [Function.update_of_ne hk] at hrecalls
      cases answer with
      | ok _ =>
        change Place.Recalls s.codec k (Function.update last key (some state) k) p
        rwa [Function.update_of_ne hk]
      | error _ => exact hrecalls
  · cases hs.turns _ _ _ _ hturns
    exact hl.of_brought hs hf hx [_] rfl hpath hnow
  · exact hl.of_not_brings hs hf hx hpath (by simp) hnow (by simp [Deed.brings])

/-- Each step keeps `Recalls`, with the last states that `remembered` says. -/
theorem step (hs : s.Calm) (hf : s.codec.Faithful) (hx : Sound s t.scene) (hnow : t.scene.Dated)
    (hl : t.scene.Recalls s last) (h : Step s t event t') (hu : event ≠ .tampered) :
    t'.scene.Recalls s (t'.remembered last event) := by
  by_cases hreturned : ∀ key state answer, event ≠ .answered (.finish key state) answer
  · by_cases hcreated : ∀ args key, event ≠ .answered (.create args) (.ok (.created key))
    · obtain ⟨ds, hpath, haccount⟩ := h.path hs.discreet hx
      have hsame : t'.remembered last event = last := by
        unfold Traffic.remembered
        split
        · exact absurd rfl (hcreated _ _)
        · exact absurd rfl (hreturned _ _ _)
        · rfl
      rw [hsame]
      exact hl.of_not_brings hs hf hx hpath (haccount.untampered hu) hnow
        (haccount.not_brings hcreated hreturned)
    · push Not at hcreated
      obtain ⟨args, key, rfl⟩ := hcreated
      obtain ⟨slot, state, hslot, hr, hpath⟩ := h.of_created hs.discreet rfl
      have hmade := hl.of_brought hs hf hx [_] rfl hpath hnow
      rwa [Traffic.remembered, hslot, Option.bind_some, hr.payload]
  · push Not at hreturned
    obtain ⟨key, state, answer, rfl⟩ := hreturned
    obtain ⟨rest, r, w, hrest, hw, rfl, rfl⟩ := h.of_finish rfl
    exact hl.finish hs hf hx hnow hrest hw _

end Scene.Recalls

/-! ## Runs -/

/-- A `Fresh` cache `Recalls` the states that its records decode to. -/
theorem Traffic.Fresh.recalls (ht : t.Fresh s)
    (hl : ∀ key bytes, t.world.store.contents key = some bytes →
      ∃ state, last key = some state ∧ Store.stateOf s.codec key bytes = .ok state) :
    t.scene.Recalls s last := by
  intro k
  obtain ⟨p, hp⟩ := ht.tidy k
  have hslot : t.scene.cache.slot? k = none := by
    change t.world.cache.slot? k = none
    rw [ht.cache]
    rfl
  cases hp with
  | unmet hs hr hk => exact ⟨_, .unmet hs hr hk, .unmet _⟩
  | gone hs hr hk => exact ⟨_, .gone hs hr hk, .gone _⟩
  | stored hs hr hk =>
    obtain ⟨state, hlast, hb⟩ := hl k _ hr
    exact ⟨_, .stored hs hr hk, hlast ▸ .stored hb⟩
  | coming hs | ready hs | out hs => exact nomatch hslot.symm.trans hs

/-- A `Chronicle` keeps `Recalls`. -/
theorem Chronicle.recalls (hs : s.Calm) (hf : s.codec.Faithful) (hx : Sound s t.scene)
    (hnow : t.scene.Dated) (hl : t.scene.Recalls s last) (h : Chronicle s t last events t' last')
    (hu : Undisturbed events) : t'.scene.Dated ∧ t'.scene.Recalls s last' := by
  suffices hrun : Sound s t'.scene ∧ t'.scene.Dated ∧ t'.scene.Recalls s last' from hrun.2
  induction h with
  | nil => exact ⟨hx, hnow, hl⟩
  | snoc _ hstep ih =>
    obtain ⟨hx', hnow', hl'⟩ := ih hl fun h => hu (List.mem_append_left _ h)
    obtain ⟨ds, hpath, -⟩ := hstep.path hs.discreet hx'
    exact ⟨hpath.sound hx', hpath.dated hnow',
      hl'.step hs hf hx' hnow' hstep fun he => hu (by simp [he])⟩

end SessionCache
