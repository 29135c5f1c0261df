import SessionCache.Proofs.Traffic.Keeping
import SessionCache.Proofs.Traffic.Waiting
import SessionCache.Proofs.Traffic.Recording
import SessionCache.Proofs.Removal

/-!
# The order of eviction

`slots` has the ready sessions in the order of their last use: the one that `create` made last, or that
came back last by `finish`, is in front. Nothing else changes their order; they only get fewer. So the
session that `Cache.victim?` names is the one that nobody has used for longest, of those that no
operation is at work on.

Two times are kept of a use. `lastAccess` of the slot is read first; `idleSince` of the tracker is read
under the lock on the slots, and is later if the lock was not free (`Surroundings.lockedAt`).

* `Cache.ranking` is the order of the ready sessions, with both times of each.
* `Step.orders`: a step lets sessions drop out, or puts one in front.
* `Run.recency`: the order of the ready sessions, and which of them a look for room passivates.
-/

namespace SessionCache

/-- The last use of a ready session: `lastAccess` of its slot, and `idleSince` of what is tracked of its
key. -/
structure LastUse where
  key : Key
  lastAccess : Instant
  idleSince : Option Instant
  deriving DecidableEq

/-- The use of `a` began when `b` was already idle: `b.idleSince ≤ a.lastAccess`. -/
def LastUse.After (a b : LastUse) : Prop := ∀ since, b.idleSince = some since → since ≤ a.lastAccess

namespace Cache

variable {σ : Type} {c c' : Cache σ} {key : Key} {slot : Slot σ}

/-- The last use of the session in an entry of `slots`. -/
def lastUse (c : Cache σ) (e : Key × Slot σ) : LastUse :=
  ⟨e.1, e.2.lastAccess, (c.usage.find? e.1).map (·.idleSince)⟩

/-- The last uses of the sessions whose `stage` is `.ready`, in the order of `slots`. -/
def ranking (c : Cache σ) : List LastUse :=
  (c.slots.filter (·.2.stage = .ready)).map c.lastUse

theorem mem_ranking_iff (hc : c.Distinct) {e : LastUse} :
    e ∈ c.ranking ↔
      ∃ slot, c.slot? e.key = some slot ∧ slot.stage = .ready ∧ c.lastUse (e.key, slot) = e := by
  unfold ranking
  rw [List.mem_map]
  constructor
  · rintro ⟨⟨k, slot⟩, hmem, rfl⟩
    obtain ⟨hmem, hready⟩ := List.mem_filter.mp hmem
    exact ⟨slot, slot?_of_mem hc hmem, of_decide_eq_true hready, rfl⟩
  · rintro ⟨slot, hslot, hready, heq⟩
    exact ⟨(e.key, slot), List.mem_filter.mpr ⟨mem_of_slot? hslot, decide_eq_true hready⟩, heq⟩

/-- `ranking` without `key` is that of the other slots. -/
theorem ranking_filter_ne (c : Cache σ) (key : Key) :
    c.ranking.filter (·.key ≠ key) =
      ((c.slots.filter (·.1 ≠ key)).filter (·.2.stage = .ready)).map c.lastUse := by
  rw [ranking, List.filter_map, List.filter_filter, List.filter_filter]
  congr 1
  exact List.filter_congr fun e _ => Bool.and_comm _ _

theorem Within.ranking (h : Within key c c') :
    c'.ranking.filter (·.key ≠ key) = c.ranking.filter (·.key ≠ key) := by
  rw [ranking_filter_ne, ranking_filter_ne, h.others]
  refine List.map_congr_left fun e he => ?_
  have hne : e.1 ≠ key :=
    of_decide_eq_true (List.mem_filter.mp (List.mem_filter.mp he).1).2
  rw [lastUse, lastUse, h.tracked e.1 hne]

/-- No entry of `ranking` has a key whose slots are not `.ready`. -/
theorem ne_of_mem_ranking (h : ∀ e ∈ c.slots, e.1 = key → e.2.stage ≠ .ready) {e : LastUse}
    (he : e ∈ c.ranking) : e.key ≠ key := by
  obtain ⟨e', he', rfl⟩ := List.mem_map.mp he
  obtain ⟨hmem, hready⟩ := List.mem_filter.mp he'
  exact fun hk => h e' hmem hk (of_decide_eq_true hready)

theorem Within.ranking_sublist (h : Within key c c')
    (hk : ∀ e ∈ c'.slots, e.1 = key → e.2.stage ≠ .ready) : c'.ranking.Sublist c.ranking := by
  have hself : c'.ranking.filter (·.key ≠ key) = c'.ranking :=
    List.filter_eq_self.mpr fun e he => decide_eq_true (ne_of_mem_ranking hk he)
  rw [← hself, h.ranking]
  exact List.filter_sublist

/-- A change of the slots that keeps key, `stage` and `lastAccess` of each keeps `ranking`. -/
theorem ranking_map (c : Cache σ) {g : Key × Slot σ → Key × Slot σ}
    (hg : ∀ e, (g e).1 = e.1 ∧ (g e).2.stage = e.2.stage ∧ (g e).2.lastAccess = e.2.lastAccess) :
    { c with slots := c.slots.map g }.ranking = c.ranking := by
  have huse : ∀ e, c.lastUse (g e) = c.lastUse e := fun e => by
    rw [lastUse, lastUse, (hg e).1, (hg e).2.2]
  have hfilter : ((fun e : Key × Slot σ => decide (e.2.stage = .ready)) ∘ g) =
      fun e => decide (e.2.stage = .ready) := funext fun e => by
    rw [Function.comp_apply, (hg e).2.1]
  show ((c.slots.map g).filter (·.2.stage = .ready)).map c.lastUse = c.ranking
  rw [List.filter_map, List.map_map, hfilter]
  exact List.map_congr_left fun e _ => huse e

theorem ranking_update (c : Cache σ) (key : Key) {f : Slot σ → Slot σ}
    (hf : ∀ slot, (f slot).stage = slot.stage ∧ (f slot).lastAccess = slot.lastAccess) :
    (c.update key f).ranking = c.ranking := by
  refine ranking_map c (g := Assoc.change key f) fun e => ⟨Assoc.change_fst _ _ e, ?_⟩
  unfold Assoc.change
  split
  · exact hf e.2
  · exact ⟨rfl, rfl⟩

theorem Tame.ranking_sublist (h : Tame key c c') : c'.ranking.Sublist c.ranking := by
  cases h with
  | counters | occupied => exact .refl _
  | unlink =>
    refine (within_unlink c).ranking_sublist fun e he hk => ?_
    exact absurd hk (of_decide_eq_true (List.mem_filter.mp he).2)
  | place slot hslot =>
    refine (within_link c slot).ranking_sublist fun e he hk => ?_
    obtain rfl | he := List.mem_cons.mp he
    · exact hslot
    · exact absurd hk (of_decide_eq_true (List.mem_filter.mp he).2)
  | change f hf => rw [ranking_update c key hf]

/-- A ready slot that is linked, with its key marked idle at `now`, stands in front of `ranking`. -/
theorem ranking_link (c : Cache σ) (key : Key) (now : Instant) (hready : slot.stage = .ready) :
    ((c.link key slot).markIdle now key).ranking =
      ⟨key, slot.lastAccess, some now⟩ :: c.ranking.filter (·.key ≠ key) := by
  have hwithin : Within key c ((c.link key slot).markIdle now key) :=
    (within_link c slot).trans
      ⟨rfl, fun other ho => (Usage.find?_markIdle _ _ _ other).trans (if_neg ho), rfl, rfl⟩
  have huse : ((c.link key slot).markIdle now key).lastUse (key, slot) =
      ⟨key, slot.lastAccess, some now⟩ := by
    rw [lastUse]
    congr 1
    exact congrArg _ ((Usage.find?_markIdle _ _ _ key).trans (if_pos rfl))
  rw [← hwithin.ranking, ranking_filter_ne, ← huse]
  -- In front of the slots of the other keys there is only the new one.
  have hothers : ((c.link key slot).markIdle now key).slots.filter (·.1 ≠ key) =
      c.slots.filter (·.1 ≠ key) := hwithin.others
  rw [hothers]
  exact congrArg (List.map _) (List.filter_cons_of_pos (by simpa using hready))

/-- A slot that `Op.regain` made ready stands in front of `ranking`. -/
theorem ranking_comeback (hslot : c.slot? key = some slot) (time now : Instant) (state : σ) :
    (((c.update key (·.toReady time state)).markIdle now key).promote key).ranking =
      ⟨key, time, some now⟩ :: c.ranking.filter (·.key ≠ key) := by
  have hback : (c.update key (·.toReady time state)).slot? key = some (slot.toReady time state) :=
    update_self hslot _
  rw [← markIdle_promote, promote_of_some hback]
  refine (ranking_link (c.update key (·.toReady time state)) key now rfl).trans ?_
  rw [(within_update key c (·.toReady time state)).ranking]
  rfl

/-! ## Victims -/

/-- `victim?` is the session whose last use is the oldest: `idleSince` of its key is not after
`lastAccess` of any other slot that is `.ready` and not `held`. -/
theorem oldest_of_victim? (hc : c.Distinct) (horder : c.ranking.Pairwise LastUse.After)
    (h : c.victim? = some key) :
    ∃ slot, c.slot? key = some slot ∧ slot.stage = .ready ∧ slot.held = false ∧
      ∀ e, c.usage.find? key = some e → ∀ other slot', other ≠ key →
        c.slot? other = some slot' → slot'.stage = .ready → slot'.held = false →
          e.idleSince ≤ slot'.lastAccess := by
  obtain ⟨slot, front, back, hsplit, hslot, hfree, hready, hback⟩ := exists_victim?_split hc h
  refine ⟨slot, hslot, hready, hfree, fun e he other slot' hne hslot' hready' hfree' => ?_⟩
  have hfront : (other, slot') ∈ front := by
    have hmem := mem_of_slot? hslot'
    rw [hsplit, List.mem_append, List.mem_cons] at hmem
    obtain hmem | heq | hmem := hmem
    · exact hmem
    · exact absurd (congrArg Prod.fst heq) hne
    · exact nomatch hfree'.symm.trans (hback _ hmem hready')
  rw [ranking, hsplit, List.filter_append, List.map_append,
    List.filter_cons_of_pos (by simpa using hready), List.map_cons] at horder
  refine (List.pairwise_append.mp horder).2.2 (c.lastUse (other, slot')) ?_ _ List.mem_cons_self
    e.idleSince ?_
  · exact List.mem_map_of_mem (List.mem_filter.mpr ⟨hfront, decide_eq_true hready'⟩)
  · rw [lastUse, he]
    rfl

/-! ## Sessions that operations are at work on -/

/-- `c` with `held` set in exactly the slots whose keys `held` names. -/
def holding (held : Key → Bool) (c : Cache σ) : Cache σ :=
  { c with slots := c.slots.map fun e => (e.1, { e.2 with held := held e.1 }) }

variable {held : Key → Bool}

@[simp] theorem holding_usage : (c.holding held).usage = c.usage := rfl

@[simp] theorem holding_occupied : (c.holding held).occupied = c.occupied := rfl

@[simp] theorem ranking_holding : (c.holding held).ranking = c.ranking :=
  ranking_map c fun _ => ⟨rfl, rfl, rfl⟩

theorem Distinct.holding (hc : c.Distinct) : (c.holding held).Distinct := by
  rw [Distinct, keys, Cache.holding, List.map_map]
  exact hc

theorem slot?_of_holding (hc : c.Distinct) {slot' : Slot σ}
    (h : (c.holding held).slot? key = some slot') :
    ∃ slot, c.slot? key = some slot ∧ slot' = { slot with held := held key } := by
  obtain ⟨⟨k, slot⟩, hmem, heq⟩ := List.mem_map.mp (mem_of_slot? h)
  cases heq
  exact ⟨slot, slot?_of_mem hc hmem, rfl⟩

end Cache

variable {σ ι ω : Type} {s : Surroundings σ ι ω} {t t' : Traffic σ ι ω}
  {event : Traffic.Event σ ι} {events : List (Traffic.Event σ ι)} {w w' : World σ ω} {key : Key}

/-! ## What operations do to the order -/

/-- `ranking` of `w'` is a sublist of that of `w`. -/
def World.Fades (w w' : World σ ω) : Prop := w'.cache.ranking.Sublist w.cache.ranking

/-- A session is in front now, as the one most recently used: `lastAccess` was read before the lock on
the slots was free, and `idleSince` once it was. -/
def World.Freshens (key : Key) (w w' : World σ ω) : Prop :=
  ∃ time, w.now ≤ time ∧ time ≤ w'.now ∧
    w'.cache.ranking = ⟨key, time, some w'.now⟩ :: w.cache.ranking.filter (·.key ≠ key)

theorem World.Fades.of_cache (h : w'.cache.slots = w.cache.slots)
    (hu : w'.cache.usage = w.cache.usage) : w.Fades w' := by
  have heq : w'.cache.ranking = w.cache.ranking := by
    unfold Cache.ranking Cache.lastUse
    rw [h, hu]
  rw [World.Fades, heq]

theorem harmless_fades (key : Key) : Op.Harmless key (World.Fades (σ := σ) (ω := ω)) where
  refl _ := .refl _
  trans h h' := List.Sublist.trans h' h
  aside h := .of_cache (congrArg Cache.slots h.cache) (congrArg Cache.usage h.cache)
  store _ := .of_cache rfl rfl
  cache h _ _ := h.ranking_sublist

theorem Op.expirePassivated_fades {r : Except CacheError Nat}
    (h : exec (Op.expirePassivated s) w = (r, w')) : w.Fades w' := by
  rw [expirePassivated] at h
  split at h
  · cases h; exact .of_cache rfl rfl
  · rw [exec_bind_ok (exec_now _)] at h
    obtain ⟨purged, w₁, hp, h⟩ | ⟨e, hp, rfl⟩ := exec_bind_cases h
    · rw [exec_onStore] at hp
      obtain rfl := (congrArg Prod.snd hp).symm
      cases h
      exact .of_cache rfl rfl
    · rw [exec_onStore] at hp
      obtain rfl := (congrArg Prod.snd hp).symm
      exact .of_cache rfl rfl

/-! ## Steps -/

/-- The event ends the last use of `key`: `create` made it, or `finish` gave its state back. -/
def Traffic.Event.Uses (key : Key) : Traffic.Event σ ι → Prop
  | .answered (.create _) (.ok (.created k)) => k = key
  | .answered (.finish k _) (.ok .done) => k = key
  | _ => False

/-- What a step does to `ranking`: some sessions drop out, or the one whose use the event ends
stands in front. -/
inductive Orders (event : Traffic.Event σ ι) (w w' : World σ ω) : Prop where
  | fades (h : w.Fades w') (hu : ∀ key, event.Uses key → ∀ e ∈ w'.cache.ranking, e.key ≠ key)
  | freshens {key : Key} (hu : event.Uses key) (h : w.Freshens key w')

theorem Orders.unused (h : w.Fades w') (hu : ∀ key, ¬event.Uses key) : Orders event w w' :=
  .fades h fun key hk => absurd hk (hu key)

namespace Cache

variable {c : Cache σ}

theorem not_ready_of_none (hc : c.Distinct) (h : c.slot? key = none) :
    ∀ e ∈ c.slots, e.1 = key → e.2.stage ≠ .ready := by
  rintro ⟨k, slot⟩ he rfl
  exact nomatch h.symm.trans (slot?_of_mem hc he)

theorem not_ready_of_stage (hc : c.Distinct) {slot : Slot σ} (h : c.slot? key = some slot)
    (hs : slot.stage ≠ .ready) : ∀ e ∈ c.slots, e.1 = key → e.2.stage ≠ .ready := by
  rintro ⟨k, slot'⟩ he rfl
  obtain rfl := Option.some.inj (h.symm.trans (slot?_of_mem hc he))
  exact hs

end Cache

section

variable {d : Desk σ ι} {slot : Slot σ} {state : σ}

open Op

/-- `ranking` only loses sessions where the slot of `key` is checked out or gone, and other keys are
left alone. -/
theorem World.Spares.fades (h : w.Spares key w') (hc : w'.cache.Distinct)
    (hk : (∃ slot, w'.cache.slot? key = some slot ∧ slot.IsOut) ∨ w'.cache.slot? key = none) :
    w.Fades w' := by
  obtain ⟨slot, hslot, ho⟩ | hnone := hk
  · exact h.ranking_sublist (Cache.not_ready_of_stage hc hslot (by rw [ho.stage]; exact nofun))
  · exact h.ranking_sublist (Cache.not_ready_of_none hc hnone)

theorem exec_finish_orders (hs : s.Discreet) {rest : Multiset (Key × σ)}
    (hh : d.handles = (key, state) ::ₘ rest) (hslot : w.cache.slot? key = some slot)
    (ho : slot.IsOut) (hc : w'.cache.Distinct) {answer : Except CacheError Unit}
    (h : exec (finish s key state) w = (answer, w')) :
    Orders (.answered (.finish key state) (answer.map fun _ => .done) : Traffic.Event σ ι) w w' := by
  have hspares : w.Spares key w' := (Local.finish (local_spares key) hs state).at h
  have hgone (hnone : w'.cache.slot? key = none) :
      Orders (.answered (.finish key state) (answer.map fun _ => .done) : Traffic.Event σ ι) w w' := by
    refine .fades (hspares.fades hc (.inr hnone)) fun k hu => ?_
    obtain rfl : key = k := by
      rcases answer with _ | _
      · exact hu.elim
      · exact hu
    exact fun e he => Cache.ne_of_mem_ranking (Cache.not_ready_of_none hc hnone) he
  obtain ⟨-, failed, -, hnone, -⟩ | ⟨-, rfl, state', time, -, ⟨hfrom, hto⟩, hcache, -⟩ |
    ⟨-, message, -, hnone, -⟩ := exec_finish hs hh hslot ho h
  · exact hgone hnone
  · refine .freshens (show Traffic.Event.Uses key _ from rfl) ⟨time, hfrom, hto, ?_⟩
    rw [hcache]
    exact Cache.ranking_comeback hslot time w'.now state'
  · exact hgone hnone

theorem exec_get_fades (hs : s.Discreet) (hx : Sound s (w.scene d))
    (hslot : w.cache.slot? key = some slot) (hc : w'.cache.Distinct) {r : Except CacheError σ}
    (h : exec (get s key) w = (r, w')) : w.Fades w' := by
  have hpromote : Cache.Within key w.cache (w.cache.promote key) := Cache.within_promote _
  have hslot' : (w.cache.promote key).slot? key = some slot :=
    (Cache.slot?_promote w.cache key key).trans hslot
  obtain ⟨-, rfl⟩ | ⟨rfl, hkind⟩ | ⟨state, hr, h⟩ := exec_get_cases (d := d) hx hslot h
  · exact .of_cache rfl rfl
  · refine hpromote.ranking_sublist (Cache.not_ready_of_stage hc hslot' ?_)
    obtain ⟨ho, -⟩ | ⟨hp, -⟩ := hkind
    · exact fun hr => nomatch ho.stage.symm.trans hr
    · exact fun hr => nomatch hp.stage.symm.trans hr
  · have hspares : w.Spares key w' :=
      hpromote.trans ((Local.checkOut (local_spares key) hs).at h)
    obtain ⟨_, -, -, hout, -⟩ | ⟨_, -, hnone, -⟩ :=
      exec_checkOut (d := d) hs rfl hslot' hr.stage hr.payload hslot' hr h
    · exact hspares.fades hc (.inl hout)
    · exact hspares.fades hc (.inr hnone)

theorem exec_settle_fades (hs : s.Discreet) {rest : Multiset (Task ι)}
    (ht : d.tasks = .settling key ::ₘ rest) (hslot : w.cache.slot? key = some slot)
    (hp : slot.IsPlaceholder) (hc : w'.cache.Distinct) {r : Except CacheError σ}
    (h : exec (do settle s key; checkOut s key) w = (r, w')) : w.Fades w' := by
  have hspares : w.Spares key w' := ((local_spares key).bind (Local.settle (local_spares key) hs)
    fun _ => Local.checkOut (local_spares key) hs).at h
  obtain ⟨_, -, hout, -⟩ | ⟨_, _, -, hnone, -⟩ := exec_settle_checkOut hs ht hslot hp h
  · exact hspares.fades hc (.inl hout)
  · exact hspares.fades hc (.inr hnone)

theorem exec_introduce_orders (hs : s.Discreet) {args : ι} {rest : Multiset (Task ι)}
    (ht : d.tasks = .introducing args ::ₘ rest) (hk : (s.freshKey.run w).1 ∉ d.known)
    {answer : Except CacheError Key} (h : exec (introduce s args) w = (answer, w')) :
    Orders (.answered (.create args) (answer.map .created) : Traffic.Event σ ι) w w' := by
  obtain ⟨_, _, slot, rfl, -, -, hready, ⟨hfrom, hto⟩, hcache, -⟩ | ⟨_, _, rfl, -, hcache, -⟩ :=
    exec_introduce hs ht hk h
  · refine .freshens (show Traffic.Event.Uses (s.freshKey.run w).1 _ from rfl)
      ⟨slot.lastAccess, hfrom, hto, ?_⟩
    rw [hcache]
    exact Cache.ranking_link w.cache _ w'.now hready.stage
  · exact .unused (.of_cache (by rw [hcache]) (by rw [hcache])) fun _ => id

end

theorem Step.orders (hs : s.Discreet) (hx : Sound s t.scene) (h : Step s t event t') :
    Orders event t.world t'.world := by
  have hx' : Sound s t'.scene := h.sound hs hx
  have hc : t'.world.cache.Distinct := hx'.distinct
  cases h with
  | pass | tamper | edit | create => exact .unused (.of_cache rfl rfl) fun _ => id
  | @serve request answer w hq hw =>
    have hfades := Request.keeps harmless_fades hs hx
      (fun _ {_ _ _} hw => Op.expirePassivated_fades hw) hq hw
    refine .unused hfades fun key hu => ?_
    cases request with
    | create | get | finish => exact hq
    | _ => exact hu
  | finish hh hw =>
    obtain ⟨slot, hslot, ho, -⟩ := hx.at_handle hh
    exact exec_finish_orders hs hh hslot ho hc hw
  | @get key answer w hl hw =>
    obtain ⟨slot, hslot⟩ := Option.isSome_iff_exists.mp hl
    rw [Traffic.handed_world] at hc ⊢
    exact .unused (exec_get_fades hs hx hslot hc hw) fun _ => id
  | @miss key failure w hl hw | @fetch key w hl hw =>
    exact .unused ((Op.Harmless.announce (harmless_fades key)).at hw) fun _ => id
  | look ht hd hw => exact .unused (Op.look_keeps harmless_fades hs hw) fun _ => id
  | @fail task _ _ failure w w' ht hd hw hw' =>
    have hwithdraw : w.Fades w' := (Op.Harmless.withdraw harmless_fades failure task).at hw'
    refine .unused ((harmless_fades (.ofNat 0)).trans
      (Op.look_keeps harmless_fades hs hw) hwithdraw) fun _ hu => ?_
    cases task <;> exact hu
  | @giveUp task _ _ w ht hd hw =>
    refine .unused ((Op.Harmless.withdraw harmless_fades _ task).at hw) fun _ hu => ?_
    cases task <;> exact hu
  | introduce ht hk hw => exact exec_introduce_orders hs ht hk hw
  | @settle key rest answer w ht hw =>
    obtain ⟨slot, hslot, hp, -⟩ := hx.at_task ht (decide_eq_true rfl)
    rw [Traffic.handed_world] at hc ⊢
    exact .unused (exec_settle_fades hs ht hslot hp hc hw) fun _ => id

/-! ## Runs -/

/-- The last `create` or `finish` of `key` in a run is the step from `t₁` to `t₂`: it read `last` and
then `since`, the time when it ended. -/
def LastUsed (s : Surroundings σ ι ω) (t : Traffic σ ι ω) (events : List (Traffic.Event σ ι))
    (t' : Traffic σ ι ω) (key : Key) (last since : Instant) : Prop :=
  ∃ before event after t₁ t₂, events = before ++ event :: after ∧ Run s t before t₁ ∧
    Step s t₁ event t₂ ∧ Run s t₂ after t' ∧ event.Uses key ∧
    (t₁.world.now ≤ last ∧ last ≤ since ∧ since = t₂.world.now) ∧ ∀ e ∈ after, ¬e.Uses key

theorem LastUsed.of_step (h : Run s t events t') {t'' : Traffic σ ι ω} (h' : Step s t' event t'')
    (hu : event.Uses key) {last : Instant} (hfrom : t'.world.now ≤ last)
    (hto : last ≤ t''.world.now) :
    LastUsed s t (events ++ [event]) t'' key last t''.world.now :=
  ⟨events, event, [], t', t'', rfl, h, h', .nil, hu, ⟨hfrom, hto, rfl⟩, by simp⟩

theorem LastUsed.later {last since : Instant} (h : LastUsed s t events t' key last since)
    {t'' : Traffic σ ι ω} (h' : Step s t' event t'') (hu : ¬event.Uses key) :
    LastUsed s t (events ++ [event]) t'' key last since := by
  obtain ⟨before, event', after, t₁, t₂, rfl, hbefore, hstep, hafter, hu', htimes, hnone⟩ := h
  refine ⟨before, event', after ++ [event], t₁, t₂, by simp, hbefore, hstep, hafter.snoc h', hu',
    htimes, fun e he => ?_⟩
  obtain he | he := List.mem_append.mp he
  · exact hnone e he
  · rwa [List.mem_singleton.mp he]

theorem Traffic.Event.Uses.key_eq {k : Key} (h : event.Uses key) (h' : event.Uses k) : key = k := by
  unfold Uses at h h'
  split at h
  · exact h.symm.trans h'
  · exact h.symm.trans h'
  · exact h.elim

/-- The invariant of `ranking` in a run: it is in the order of `LastUse.After`, and each entry was
`LastUsed`. -/
structure Ranked (s : Surroundings σ ι ω) (t : Traffic σ ι ω) (events : List (Traffic.Event σ ι))
    (t' : Traffic σ ι ω) : Prop where
  order : t'.world.cache.ranking.Pairwise LastUse.After
  used : ∀ e ∈ t'.world.cache.ranking, ∃ since, e.idleSince = some since ∧
    since ≤ t'.world.now ∧ LastUsed s t events t' e.key e.lastAccess since

/-- The sessions in `ranking` are idle when the next use begins. -/
theorem Ranked.after (h : Ranked s t events t') {time : Instant} (hfrom : t'.world.now ≤ time)
    {a e : LastUse} (ha : a.lastAccess = time) (he : e ∈ t'.world.cache.ranking) : a.After e := by
  intro since hsince
  obtain ⟨since', hsince', hpast, -⟩ := h.used e he
  obtain rfl := Option.some.inj (hsince.symm.trans hsince')
  exact ha ▸ Int.le_trans hpast hfrom

theorem Ranked.step (h : Ranked s t events t') (hrun : Run s t events t') {t'' : Traffic σ ι ω}
    (hstep : Step s t' event t'') (hnow : t'.world.now ≤ t''.world.now)
    (horders : Orders event t'.world t''.world) : Ranked s t (events ++ [event]) t'' := by
  have hstays : ∀ e ∈ t'.world.cache.ranking, ¬event.Uses e.key → ∃ since,
      e.idleSince = some since ∧ since ≤ t''.world.now ∧
        LastUsed s t (events ++ [event]) t'' e.key e.lastAccess since := fun e he hu => by
    obtain ⟨since, hsince, hpast, hlast⟩ := h.used e he
    exact ⟨since, hsince, Int.le_trans hpast hnow, hlast.later hstep hu⟩
  cases horders with
  | fades hfades hu =>
    exact ⟨h.order.sublist hfades, fun e he =>
      hstays e (hfades.subset he) fun huse => hu _ huse e he rfl⟩
  | @freshens key hu hfresh =>
    obtain ⟨time, hfrom, hto, hfresh⟩ := hfresh
    constructor <;> rw [hfresh]
    · refine List.pairwise_cons.mpr ⟨fun e he => ?_, h.order.sublist List.filter_sublist⟩
      exact h.after hfrom rfl (List.mem_filter.mp he).1
    · intro e he
      obtain rfl | he := List.mem_cons.mp he
      · exact ⟨_, rfl, Int.le_refl _, .of_step hrun hstep hu hfrom hto⟩
      · obtain ⟨he, hne⟩ := List.mem_filter.mp he
        exact hstays e he fun huse => of_decide_eq_true hne (huse.key_eq hu)

/-- Of two ready sessions, the one with the earlier `idleSince` has no later `lastAccess`. -/
theorem Ranked.lastAccess_le (h : Ranked s t events t') {a b : LastUse}
    (ha : a ∈ t'.world.cache.ranking) (hb : b ∈ t'.world.cache.ranking) {since since' : Instant}
    (hsince : a.idleSince = some since) (hsince' : b.idleSince = some since')
    (hle : a.lastAccess ≤ since) (hlt : since < since') : a.lastAccess ≤ b.lastAccess := by
  obtain ⟨i, hi, rfl⟩ := List.getElem_of_mem ha
  obtain ⟨j, hj, rfl⟩ := List.getElem_of_mem hb
  have horder := List.pairwise_iff_getElem.mp h.order
  obtain hij | rfl | hji := Nat.lt_trichotomy i j
  · have hbefore := Int.le_trans (horder i j hi hj hij since' hsince') hle
    exact absurd hlt (Int.not_lt.mpr hbefore)
  · obtain rfl := Option.some.inj (hsince.symm.trans hsince')
    exact absurd hlt (Int.lt_irrefl _)
  · exact Int.le_trans hle (horder j i hj hi hji since hsince)

theorem Run.ranked (hs : s.Discreet) (ht : t.Fresh s) (h : Run s t events t') :
    Ranked s t events t' := by
  induction h with
  | nil =>
    have hnone : t.world.cache.ranking = [] := by rw [ht.cache]; rfl
    constructor <;> rw [hnone]
    · exact .nil
    · exact fun e he => nomatch he
  | @snoc t' t'' events event hrun hstep ih =>
    have hx : Sound s t'.scene := hrun.sound hs ht
    obtain ⟨ds, hpath, -⟩ := hstep.path hs hx
    exact ih.step hrun hstep hpath.surroundings.1.1 (hstep.orders hs hx)

/-! ## Looks for room -/

/-- `w` with `Cache.holding held`. -/
def World.holding (held : Key → Bool) (w : World σ ω) : World σ ω :=
  { w with cache := w.cache.holding held }

/-- `Op.look` leaves the slots alone, or passivates the session whose last use is the oldest of
those that are `.ready` and not `held`. -/
inductive Evicts (s : Surroundings σ ι ω) (w w' : World σ ω) : Prop where
  /-- There is room, or every ready session is held. -/
  | nothing (h : w.cache.occupied < s.settings.maxSize ∨ ∀ key slot,
      w.cache.slot? key = some slot → slot.stage = .ready → slot.held = true)
      (hslots : w'.cache.slots = w.cache.slots) (hout : w'.outside = w.outside)
  /-- The session that is passivated was idle before any other one was used last. -/
  | oldest {key : Key} {slot : Slot σ} {since : Instant} {answer : Except CacheError Unit}
      (hfull : s.settings.maxSize ≤ w.cache.occupied) (hslot : w.cache.slot? key = some slot)
      (hready : slot.stage = .ready) (hfree : slot.held = false)
      (hsince : w.cache.usage.find? key = some ⟨key, false, since⟩)
      (hold : ∀ other slot', other ≠ key → w.cache.slot? other = some slot' →
        slot'.stage = .ready → slot'.held = false → since ≤ slot'.lastAccess)
      (h : exec (Op.passivate s key) w = (answer, w'))
      (hother : ∀ other, other ≠ key → w'.cache.slot? other = w.cache.slot? other)

theorem exec_look_evicts (hs : s.Discreet) (hc : w.cache.Distinct)
    (horder : w.cache.ranking.Pairwise LastUse.After)
    (htracked : ∀ key slot, w.cache.slot? key = some slot → slot.stage = .ready →
      ∃ since, w.cache.usage.find? key = some ⟨key, false, since⟩)
    {deadline : Deadline} {r : Except CacheError Look}
    (h : exec (Op.look s deadline) w = (r, w')) : Evicts s w w' := by
  obtain ⟨hroom, -, rfl⟩ | ⟨hroom, victim, answer, hvictim, hp, -⟩ | ⟨-, hvictim, rfl, -⟩ :=
    Op.exec_look_cases h
  · exact .nothing (.inl hroom) rfl rfl
  · obtain ⟨slot, hslot, hready, hfree, hold⟩ := Cache.oldest_of_victim? hc horder hvictim
    obtain ⟨since, hsince⟩ := htracked victim slot hslot hready
    have hspares : w.Spares victim w' :=
      (Op.Harmless.passivate (local_spares victim).harmless hs).at hp
    exact .oldest (Int.not_lt.mp hroom) hslot hready hfree hsince (hold _ hsince) hp
      fun other => hspares.slot?
  · exact .nothing (.inr fun key slot hslot hready =>
      Cache.held_of_victim?_none hvictim hslot hready) rfl rfl

/-- In every state that a cache in use gets to, whatever callbacks and calls of the store failed:

* The ready sessions stand in the order of their last uses: `idleSince` of one is not after
  `lastAccess` of any in front of it.
* Each is tracked as idle, with `lastAccess ≤ idleSince ≤ now`, and both times lie within the step of
  its last `create` or `finish`.
* A look for room (`Op.look`), also while operations under way hold some slots, passivates the ready
  session whose last use is the oldest of those whose slot nobody holds, and leaves the slots of all
  other keys alone. -/
theorem Run.recency (hs : s.Discreet) (ht : t.Fresh s) (h : Run s t events t') :
    t'.world.cache.ranking.Pairwise (fun a b => b.lastAccess ≤ a.lastAccess ∧ a.After b) ∧
      (∀ key slot, t'.world.cache.slot? key = some slot → slot.stage = .ready → ∃ since,
        t'.world.cache.usage.find? key = some ⟨key, false, since⟩ ∧ slot.lastAccess ≤ since ∧
          since ≤ t'.world.now ∧ LastUsed s t events t' key slot.lastAccess since) ∧
      ∀ held deadline answer w, exec (Op.look s deadline) (t'.world.holding held) = (answer, w) →
        Evicts s (t'.world.holding held) w := by
  have hx : Sound s t'.scene := h.sound hs ht
  have hranked := h.ranked hs ht
  have hready : ∀ key slot, t'.world.cache.slot? key = some slot → slot.stage = .ready → ∃ since,
      t'.world.cache.usage.find? key = some ⟨key, false, since⟩ ∧ slot.lastAccess ≤ since ∧
        since ≤ t'.world.now ∧ LastUsed s t events t' key slot.lastAccess since := by
    intro key slot hslot hready
    obtain ⟨state, hr⟩ := hx.ready_of_stage hslot hready
    obtain ⟨⟨since, hsince, hle⟩, -⟩ := hx.at_ready hslot hr
    have hmem : t'.world.cache.lastUse (key, slot) ∈ t'.world.cache.ranking :=
      (Cache.mem_ranking_iff hx.distinct).mpr ⟨slot, hslot, hready, rfl⟩
    obtain ⟨since', heq, hpast, hlast⟩ := hranked.used _ hmem
    obtain rfl : since = since' := by
      rw [Cache.lastUse, show t'.world.cache.usage.find? key = _ from hsince] at heq
      exact Option.some.inj heq
    exact ⟨since, hsince, hle, hpast, hlast⟩
  refine ⟨?_, hready, fun held deadline answer w hw => ?_⟩
  · refine hranked.order.imp_of_mem fun {a b} _ hb hab => ⟨?_, hab⟩
    obtain ⟨since, hsince, -, _, _, _, _, _, _, _, _, _, _, ⟨-, hle, -⟩, -⟩ := hranked.used b hb
    exact Int.le_trans hle (hab since hsince)
  · have horder : (t'.world.cache.holding held).ranking.Pairwise LastUse.After :=
      Cache.ranking_holding.symm ▸ hranked.order
    refine exec_look_evicts hs hx.distinct.holding horder (fun key slot hslot hstage => ?_) hw
    obtain ⟨slot, hslot', rfl⟩ := Cache.slot?_of_holding hx.distinct hslot
    obtain ⟨since, hsince, -⟩ := hready key slot hslot' hstage
    exact ⟨since, hsince⟩

/-- Surroundings of a cache with room for two sessions. -/
def Surroundings.pair : Surroundings Bool Bool Journal :=
  .recording { maxSize := 2 } .flag (fun _ _ => false) .ofNat

/-- Of two ready sessions, the one made first was used again, and `Op.look` passivates the other. -/
theorem Run.recency_of_two :
    ∃ events t' answer w, Run .pair (.opened .pair (.empty fun _ _ => none) ⟨0⟩ {}) events t' ∧
      t'.world.cache.ranking =
        [⟨.ofNat 0, ⟨7⟩, some ⟨7⟩⟩, ⟨.ofNat 1, ⟨5⟩, some ⟨5⟩⟩] ∧
      exec (Op.look .pair .never) (t'.world.holding fun _ => false) = (answer, w) ∧
      Evicts .pair (t'.world.holding fun _ => false) w ∧
      w.cache.ranking = [⟨.ofNat 0, ⟨7⟩, some ⟨7⟩⟩] := by
  have h₁ := (Run.nil (s := .pair)
    (t := .opened .pair (.empty fun _ _ => none) ⟨0⟩ {})).thenCreate true (by decide)
      (fun hk => hk rfl)
  have h₂ := (h₁.snoc (.pass (show _ ≤ (⟨5⟩ : Instant) by decide) (by decide))).thenCreate true (by decide)
    (fun hk => Or.elim hk (by decide) (fun hk => hk rfl))
  have h₃ := (h₂.snoc (.pass (show _ ≤ (⟨7⟩ : Instant) by decide) (by decide))).thenGet (.ofNat 0) rfl
  have h₄ := h₃.snoc (.givenBack (0 : Multiset (Key × Bool)) rfl)
  obtain ⟨-, -, hlook⟩ := Run.recency Surroundings.recording_discreet
    (Traffic.opened_fresh _ _ _ _) h₄
  refine ⟨_, _, _, _, h₄, ?_, Prod.mk.eta.symm, hlook (fun _ => false) .never _ _ Prod.mk.eta.symm, ?_⟩
  · decide +kernel
  · decide +kernel

/-- `Surroundings.pair` with `lockedAt` one tick late at `⟨0⟩`. -/
def Surroundings.contended : Surroundings Bool Bool Journal :=
  { Surroundings.pair with lockedAt := fun w => if w.now = ⟨0⟩ then ⟨1⟩ else w.now }

/-- The two times of a use differ where `create` has to wait for the lock: `lastAccess` is `⟨0⟩`,
`idleSince` is `⟨1⟩`. And where an operation holds the slot of the ready session that was used least
recently, a look for room takes the other one, whose last use is later. -/
theorem Run.recency_parted :
    (∃ events t', Run .contended (.opened .contended (.empty fun _ _ => none) ⟨0⟩ {}) events t' ∧
      t'.world.cache.ranking = [⟨.ofNat 0, ⟨0⟩, some ⟨1⟩⟩]) ∧
    ∃ events t' answer w, Run .pair (.opened .pair (.empty fun _ _ => none) ⟨0⟩ {}) events t' ∧
      t'.world.cache.ranking =
        [⟨.ofNat 1, ⟨5⟩, some ⟨5⟩⟩, ⟨.ofNat 0, ⟨0⟩, some ⟨0⟩⟩] ∧
      exec (Op.look .pair .never) (t'.world.holding (· = .ofNat 0)) = (answer, w) ∧
      w.cache.ranking = [⟨.ofNat 0, ⟨0⟩, some ⟨0⟩⟩] := by
  constructor
  · have h₁ := (Run.nil (s := .contended)
      (t := .opened .contended (.empty fun _ _ => none) ⟨0⟩ {})).thenCreate true (by decide)
        (fun hk => hk rfl)
    exact ⟨_, _, h₁, by decide +kernel⟩
  · have h₁ := (Run.nil (s := .pair)
      (t := .opened .pair (.empty fun _ _ => none) ⟨0⟩ {})).thenCreate true (by decide)
        (fun hk => hk rfl)
    have h₂ := (h₁.snoc (.pass (show _ ≤ (⟨5⟩ : Instant) by decide) (by decide))).thenCreate true
      (by decide) (fun hk => Or.elim hk (by decide) (fun hk => hk rfl))
    refine ⟨_, _, _, _, h₂, ?_, Prod.mk.eta.symm, ?_⟩
    · decide +kernel
    · decide +kernel

end SessionCache
