import SessionCache.Proofs.Cache.Slots
import SessionCache.Proofs.Record.Basket
import SessionCache.Proofs.Store.Clear
import SessionCache.Proofs.Traffic.Handling
import SessionCache.Proofs.Traffic.Recording
import SessionCache.Simulation.Workload

/-!
# Where the baskets are

In a workload nobody else works with the cache, no callback fails, and nothing is in the way in the
store. Then each operation does what it is for, whichever sessions have to make room for others:
what is in the baskets (`Shelf`) does not depend on which of them are in memory.

* `Shop.Stocked`: each basket is the one on the shelf, in memory or in a record.
* `Shop.Stocked.reserve`: there is always room to be had.
* `Shop.Stocked.create`, `Shop.Stocked.get`, `Shop.Stocked.finish`, `Shop.Stocked.remove`: the
  operations on sessions, each as a change of the shelf.
* `Shop.Stocked.passivateAll`: nothing stays in memory.
-/

namespace SessionCache

/-- The surroundings of a workload: `settings`, the `keys` of its sessions, the records of `others`
in the store, and a clock that stands still at `now`. -/
structure Shop where
  settings : Settings
  keys : Nat → Key
  /-- The number of sessions. -/
  count : Nat
  others : Key → Option ByteArray
  now : Instant
  room : 0 < settings.maxSize
  keys_inj : ∀ m < count, ∀ n < count, keys m = keys n → m = n
  fresh : ∀ n < count, others (keys n) = none
  early : .earliest ≤ now
  late : now ≤ .latest

/-- The basket under each key; `none` for a key without session. -/
abbrev Shelf := Key → Option Basket

/-- `made` sessions were made and `gone` removed between `w` and `w'`. -/
structure Turnover (made gone : Nat) (w w' : World Basket Nat) : Prop where
  outside : w'.outside = w.outside + made
  created : w'.cache.counters.created = w.cache.counters.created + made
  removed : w'.cache.counters.removed = w.cache.counters.removed + gone

theorem Turnover.trans {m m' g g' : Nat} {w w' w'' : World Basket Nat} (h : Turnover m g w w')
    (h' : Turnover m' g' w' w'') : Turnover (m + m') (g + g') w w'' where
  outside := by rw [h'.outside, h.outside, Nat.add_assoc]
  created := by rw [h'.created, h.created, Nat.add_assoc]
  removed := by rw [h'.removed, h.removed, Nat.add_assoc]

theorem Turnover.then {m g : Nat} {w w' w'' : World Basket Nat} (h : Turnover 0 0 w w')
    (h' : Turnover m g w' w'') : Turnover m g w w'' := by
  simpa using h.trans h'

namespace Shop

variable {shop : Shop}

/-- The `Surroundings` of the operations of the workload. -/
def surroundings (shop : Shop) : Surroundings Basket String Nat :=
  Workload.surroundings shop.settings shop.keys

/-- `key` is that of one of the sessions. -/
def Owns (shop : Shop) (key : Key) : Prop := ∃ n < shop.count, shop.keys n = key

theorem Owns.fresh {key : Key} (h : shop.Owns key) : shop.others key = none := by
  obtain ⟨n, hn, rfl⟩ := h
  exact shop.fresh n hn

/-! ## Callbacks -/

/-- No callback fails, and `.postInvoke` counts the call in the basket. -/
theorem exec_fire (phase : Phase) (key : Key) (basket? : Option Basket) (w : World Basket Nat) :
    exec (shop.surroundings.lifecycle.fire phase key basket?) w =
      (.ok (if phase = .postInvoke then basket?.map Basket.countCall else basket?), w) := by
  have hchain : (shop.surroundings.lifecycle.runPhase phase key basket?).run w =
      ((if phase = .postInvoke then basket?.map Basket.countCall else basket?, none), w) := by
    cases basket? <;> cases phase <;> rfl
  rw [Lifecycle.fire, exec_bind_ok (exec_lift _ w), hchain]
  rfl

theorem exec_fire_quiet {phase : Phase} (h : phase ≠ .postInvoke) (key : Key)
    (basket? : Option Basket) (w : World Basket Nat) :
    exec (shop.surroundings.lifecycle.fire phase key basket?) w = (.ok basket?, w) := by
  rw [exec_fire, if_neg h]

/-! ## The shelf -/

/-- For the basket of `key` on the shelf, its slot and its record, if no operation is at work on
it. -/
inductive Rests (shop : Shop) (key : Key) :
    Option Basket → Option (Slot Basket) → Option ByteArray → Prop
  | absent : shop.Rests key none none (shop.others key)
  | resident {b : Basket} {slot : Slot Basket} (hready : slot.IsReady b) (hfits : b.Fits)
      (howned : shop.Owns key) : shop.Rests key (some b) (some slot) none
  | stored {b : Basket} (hfits : b.Fits) (howned : shop.Owns key) :
      shop.Rests key (some b) none (some (b.record key shop.now))

/-- Every key but `busy` `Rests`, and every unit of room belongs to a slot. -/
structure Stocked (shop : Shop) (busy : Option Key) (shelf : Shelf) (w : World Basket Nat) :
    Prop where
  distinct : w.cache.Distinct
  rests : ∀ key, busy ≠ some key →
    shop.Rests key (shelf key) (w.cache.slot? key) (w.store.contents key)
  spare : w.cache.spare = 0
  full : w.cache.reservedCount ≤ shop.settings.maxSize
  clear : w.store.Clear shop.Owns
  now : w.now = shop.now

/-- The session of `key` is checked out, and every other key `Rests`. -/
structure Lent (shop : Shop) (key : Key) (shelf : Shelf) (w : World Basket Nat) : Prop where
  stocked : shop.Stocked (some key) shelf w
  out : ∃ slot, w.cache.slot? key = some slot ∧ slot.IsOut ∧ slot.removePending = false
  record : w.store.contents key = none
  owned : shop.Owns key

variable {busy busy' : Option Key} {shelf shelf' : Shelf} {w w' : World Basket Nat} {key : Key}
  {slot : Slot Basket} {b : Basket}

namespace Stocked

/-- What leaves slot and record of other keys alone keeps them at rest. -/
theorem rests_of (h : shop.Stocked busy shelf w) (key : Key)
    (hbusy : ∀ other, key ≠ other → busy' ≠ some other → busy ≠ some other)
    (hshelf : ∀ other, key ≠ other → shelf' other = shelf other)
    (hslot : ∀ other, key ≠ other → w'.cache.slot? other = w.cache.slot? other)
    (hrecord : ∀ other, key ≠ other → w'.store.contents other = w.store.contents other)
    (hkey : busy' ≠ some key →
      shop.Rests key (shelf' key) (w'.cache.slot? key) (w'.store.contents key)) :
    ∀ other, busy' ≠ some other →
      shop.Rests other (shelf' other) (w'.cache.slot? other) (w'.store.contents other) := by
  intro other hother
  by_cases hne : key = other
  · subst hne
    exact hkey hother
  · rw [hshelf other hne, hslot other hne, hrecord other hne]
    exact h.rests other (hbusy other hne hother)

theorem ready (h : shop.Stocked busy shelf w) (hkey : busy ≠ some key)
    (hslot : w.cache.slot? key = some slot) :
    ∃ b, shelf key = some b ∧ slot.IsReady b ∧ b.Fits ∧ shop.Owns key ∧
      w.store.contents key = none := by
  have hrests := h.rests key hkey
  rw [hslot] at hrests
  generalize hb : shelf key = b? at hrests
  generalize hrecord : w.store.contents key = record? at hrests
  cases hrests with
  | resident hready hfits howned => exact ⟨_, rfl, hready, hfits, howned, rfl⟩

theorem occupied (h : shop.Stocked busy shelf w) : w.cache.occupied = w.cache.reservedCount := by
  have hspare := h.spare
  unfold Cache.spare at hspare
  omega

/-! ## Room -/

/-- The world after `Op.passivate key`. -/
def packed (w : World Basket Nat) (key : Key) (store : Store) : World Basket Nat :=
  { w with
    cache := (w.cache.unlink key).countPassivated
    store
    signals := w.signals + 1 }

/-- `Op.passivate` of a slot keeps `Stocked`. -/
theorem passivate (h : shop.Stocked busy shelf w) (hkey : busy ≠ some key)
    (hslot : w.cache.slot? key = some slot) :
    ∃ store, exec (Op.passivate shop.surroundings key) w = (.ok (), packed w key store) ∧
      shop.Stocked busy shelf (packed w key store) ∧
      ∀ other, key ≠ other → store.contents other = w.store.contents other := by
  obtain ⟨b, hb, hready, hfits, howned, -⟩ := h.ready hkey hslot
  obtain ⟨store, hput, hclear, hcontents⟩ := h.clear.exec_passivate howned w.now
    (show shop.surroundings.codec.encode b = .ok b.toValue from rfl)
  have hothers : ∀ other, key ≠ other → store.contents other = w.store.contents other :=
    fun other hne => by rw [hcontents, Function.update_of_ne hne.symm]
  refine ⟨store, ?_, ⟨h.distinct.unlink key, ?_, ?_, ?_, hclear, h.now⟩, hothers⟩
  · have hstep : exec (Op.step slot.stage .evict : Op Basket Nat Stage) w =
        (.ok .passivated, w) := by
      rw [hready.stage]
      exact Op.exec_step rfl w
    rw [Op.passivate, exec_bind_ok (Op.exec_cache w)]
    simp only [hslot]
    rw [exec_bind_ok hstep]
    simp only [hready.payload]
    rw [exec_bind_ok (Op.exec_modifyCache _ w), exec_bind_ok (Op.exec_attempt _ _),
      exec_fire_quiet (by decide)]
    simp only [Option.getD_some]
    rw [exec_bind_ok (Op.exec_now _), exec_bind_ok (Op.exec_attempt _ _), Op.exec_onStore]
    simp only [hput]
    rw [Op.moveOut, exec_bind_ok (Op.exec_unlink _ _), exec_bind_ok (Op.exec_modifyCounters _ _),
      Op.seeOff, exec_bind_ok (Op.exec_attempt _ _), exec_fire_quiet (by decide)]
    simp only [exec_pure]
    rw [Cache.unlink_update]
    · rfl
    · exact fun _ => rfl
  · refine h.rests_of key (fun _ _ => id) (fun _ _ => rfl)
      (fun other hne => Cache.unlink_other _ hne) hothers fun _ => ?_
    have hgone : (packed w key store).cache.slot? key = none := Cache.unlink_self _ _
    have hrecord : (packed w key store).store.contents key = some (b.record key shop.now) := by
      rw [← h.now]
      exact (congrFun hcontents key).trans (Function.update_self _ _ _)
    rw [hb, hgone, hrecord]
    exact .stored hfits howned
  · exact (Cache.spare_unlink h.distinct key).trans h.spare
  · have hcount := Cache.reservedCount_unlink h.distinct hslot
    have hfull := h.full
    change (w.cache.unlink key).reservedCount ≤ _
    omega

/-- The slot of `busy`, if there is one, is `held` and has no unit of room. -/
def Modest (busy : Option Key) (w : World Basket Nat) : Prop :=
  ∀ key slot, busy = some key → w.cache.slot? key = some slot →
    slot.reserved = false ∧ slot.held = true

/-- In a full cache there is a `victim?`, and it is not `busy`. -/
theorem exists_victim (h : shop.Stocked busy shelf w) (hmodest : Modest busy w)
    (hfull : ¬w.cache.occupied < shop.settings.maxSize) :
    ∃ key slot, w.cache.victim? = some key ∧ w.cache.slot? key = some slot ∧ busy ≠ some key := by
  have hroom := shop.room
  have hpositive : 0 < w.cache.reservedCount := by
    have := h.occupied
    omega
  obtain ⟨⟨key, slot⟩, hmem, hreserved⟩ := List.countP_pos_iff.mp hpositive
  have hslot := Cache.slot?_of_mem h.distinct hmem
  have hkey : busy ≠ some key := fun hbusy => by
    rw [(hmodest key slot hbusy hslot).1] at hreserved
    cases hreserved
  obtain ⟨b, -, hready, -⟩ := h.ready hkey hslot
  have hsome : w.cache.victim?.isSome := by
    rw [Cache.victim?, Option.isSome_map, List.find?_isSome]
    exact ⟨_, List.mem_reverse.mpr hmem, by simp [hready.held, hready.stage]⟩
  obtain ⟨victim, hvictim⟩ := Option.isSome_iff_exists.mp hsome
  obtain ⟨taken, htaken, hheld, -⟩ := Cache.slot?_of_victim? h.distinct hvictim
  refine ⟨victim, taken, hvictim, htaken, fun hbusy => ?_⟩
  rw [(hmodest victim taken hbusy htaken).2] at hheld
  cases hheld

/-- Slot and record of `busy` are as they were. -/
def Spared (busy : Option Key) (w w' : World Basket Nat) : Prop :=
  ∀ key, busy = some key → w'.cache.slot? key = w.cache.slot? key ∧
    w'.store.contents key = w.store.contents key

/-- `Op.reserve` succeeds, after one passivation at most, and keeps `Stocked`. -/
theorem reserve (h : shop.Stocked busy shelf w) (hmodest : Modest busy w) :
    ∃ w', exec (Op.reserve shop.surroundings) w = (.ok (), w'.taken) ∧
      shop.Stocked busy shelf w' ∧ w'.cache.reservedCount < shop.settings.maxSize ∧
      Spared busy w w' ∧ Turnover 0 0 w w' := by
  let deadline := Deadline.ofSettings shop.settings w.now
  have hlooks : ∃ looks, Workload.patience = looks + 1 + 1 := ⟨twoTo 64 - 2, by decide⟩
  obtain ⟨looks, hlooks⟩ := hlooks
  have hreserve : exec (Op.reserve shop.surroundings) w =
      exec (Op.acquire shop.surroundings deadline (looks + 1 + 1)) w := by
    rw [← hlooks]
    exact exec_bind_ok (Op.exec_now w)
  have hacquire {w : World Basket Nat} (looks : Nat)
      (hroom : w.cache.occupied < shop.settings.maxSize) :
      exec (Op.acquire shop.surroundings deadline (looks + 1)) w = (.ok (), w.taken) := by
    rw [Op.acquire, exec_bind_ok (exec_look_of_room hroom deadline)]
    rfl
  by_cases hroom : w.cache.occupied < shop.settings.maxSize
  · refine ⟨w, hreserve.trans (hacquire _ hroom), h, ?_, fun _ _ => ⟨rfl, rfl⟩, ⟨rfl, rfl, rfl⟩⟩
    have := h.occupied
    omega
  · obtain ⟨victim, slot, hvictim, hslot, hkey⟩ := h.exists_victim hmodest hroom
    obtain ⟨store, hpassivate, hstocked, hothers⟩ := h.passivate hkey hslot
    obtain ⟨b, -, hready, -⟩ := h.ready hkey hslot
    have hlook : exec (Op.look shop.surroundings deadline) w =
        (.ok .made, packed w victim store) := by
      have hnone : ¬w.cache.occupied < shop.surroundings.settings.maxSize := hroom
      rw [Op.look, exec_bind_ok (Op.exec_cache w), if_neg hnone, hvictim]
      dsimp only
      rw [exec_bind_ok (Op.exec_attempt _ w), hpassivate]
      rfl
    have hcount : (packed w victim store).cache.reservedCount + 1 = w.cache.reservedCount := by
      have := Cache.reservedCount_unlink h.distinct hslot
      rw [hready.reserved, if_pos rfl] at this
      exact this
    have hfull := h.full
    have hless : (packed w victim store).cache.occupied < shop.settings.maxSize := by
      have := hstocked.occupied
      omega
    refine ⟨packed w victim store, ?_, hstocked, by omega, fun key hbusy => ?_, ⟨rfl, rfl, rfl⟩⟩
    · rw [hreserve, Op.acquire, exec_bind_ok hlook]
      exact hacquire looks hless
    · have hne : victim ≠ key := fun he => hkey (he ▸ hbusy)
      exact ⟨Cache.unlink_other _ hne, hothers key hne⟩

/-- A key without basket has no slot, and in the store what `others` says. -/
theorem missing (h : shop.Stocked busy shelf w) (hkey : busy ≠ some key)
    (hshelf : shelf key = none) :
    w.cache.slot? key = none ∧ w.store.contents key = shop.others key := by
  have hrests := h.rests key hkey
  rw [hshelf] at hrests
  generalize hslot : w.cache.slot? key = slot? at hrests
  generalize hrecord : w.store.contents key = record? at hrests
  cases hrests
  exact ⟨rfl, rfl⟩

/-- A key with a basket and no slot has its record. -/
theorem away (h : shop.Stocked busy shelf w) (hkey : busy ≠ some key) (hshelf : shelf key = some b)
    (hslot : w.cache.slot? key = none) :
    w.store.contents key = some (b.record key shop.now) ∧ b.Fits ∧ shop.Owns key := by
  have hrests := h.rests key hkey
  rw [hshelf, hslot] at hrests
  generalize hrecord : w.store.contents key = record? at hrests
  cases hrests with
  | stored hfits howned => exact ⟨rfl, hfits, howned⟩

theorem spare_taken (w : World Basket Nat) : w.taken.cache.spare = w.cache.spare + 1 := by
  unfold Cache.spare
  change w.cache.occupied + 1 - w.cache.reservedCount = _
  omega

/-! ## Making sessions -/

/-- The slot that `Op.create` makes. -/
def newSlot (w : World Basket Nat) (b : Basket) : Slot Basket where
  stage := .ready
  payload := some b
  lastAccess := w.now
  reserved := true
  stay := w.stays

/-- The world after `Op.create`. -/
def opened (w : World Basket Nat) (key : Key) (b : Basket) : World Basket Nat :=
  { w with
    cache := ((w.taken.cache.link key (newSlot w b)).markIdle w.now key).countCreated
    stays := w.stays + 1
    signals := w.signals + 1
    outside := w.outside + 1 }

theorem exec_introduce (w : World Basket Nat) (customer : String) :
    exec (Op.introduce shop.surroundings customer) w.taken =
      (.ok (shop.keys w.outside), opened w (shop.keys w.outside) { customer }) := by
  have hfresh : exec (ExceptT.lift shop.surroundings.freshKey : Op Basket Nat Key) w.taken =
      (.ok (shop.keys w.outside), { w.taken with outside := w.outside + 1 }) := rfl
  have hconstruct (w : World Basket Nat) (key : Key) :
      exec (Op.construct shop.surroundings key customer) w = (.ok { customer }, w) := by
    have hmade : exec (shop.surroundings.lifecycle.instantiate key customer) w =
        (.ok { customer }, w) := rfl
    rw [Op.construct, exec_bind_ok hmade, exec_bind_ok (exec_fire_quiet (by decide) key _ w)]
    rfl
  rw [Op.introduce, exec_bind_ok hfresh, exec_bind_ok (Op.exec_attempt _ _),
    exec_bind_ok (Op.exec_step rfl _), exec_bind_ok (hconstruct _ _)]
  rfl

/-- `Op.create` puts an empty basket under the next key. -/
theorem create (h : shop.Stocked none shelf w) (hcount : w.outside < shop.count)
    (hnew : shelf (shop.keys w.outside) = none) (customer : String) :
    ∃ w', exec (Op.create shop.surroundings customer) w = (.ok (shop.keys w.outside), w') ∧
      shop.Stocked none
        (Function.update shelf (shop.keys w.outside) (some { customer })) w' ∧
      Turnover 1 0 w w' := by
  obtain ⟨w₁, hreserve, h₁, hroom, -, hquiet⟩ := h.reserve fun _ _ hbusy => by cases hbusy
  have houtside : w₁.outside = w.outside := hquiet.outside
  rw [← houtside] at hcount hnew ⊢
  obtain ⟨key, hkey⟩ : ∃ key, shop.keys w₁.outside = key := ⟨_, rfl⟩
  have howned : shop.Owns key := ⟨_, hcount, hkey⟩
  have hintroduce := @exec_introduce shop w₁ customer
  rw [hkey] at hnew hintroduce ⊢
  obtain ⟨hslot, hrecord⟩ := h₁.missing (by simp) hnew
  have hfits : Basket.Fits { customer } := ⟨show 0 < twoTo 64 by decide, by simp⟩
  refine ⟨opened w₁ key { customer }, (exec_bind_ok hreserve).trans hintroduce,
    ⟨h₁.distinct.link key _, ?_, ?_, ?_, h₁.clear, h₁.now⟩,
    hquiet.then ⟨rfl, rfl, rfl⟩⟩
  · refine h₁.rests_of key (fun _ _ _ => by simp)
      (fun other hne => Function.update_of_ne hne.symm _ _)
      (fun other hne => Cache.link_other _ _ hne) (fun _ _ => rfl) fun _ => ?_
    have hlinked : (opened w₁ key { customer }).cache.slot? key = some (newSlot w₁ { customer }) :=
      Cache.link_self _ _ _
    have hunwritten : (opened w₁ key { customer }).store.contents key = none :=
      hrecord.trans howned.fresh
    rw [Function.update_self, hlinked, hunwritten]
    exact .resident ⟨rfl, rfl, rfl, rfl, rfl⟩ hfits howned
  · have hspare : (w₁.taken.cache.link key (newSlot w₁ { customer })).spare =
        w₁.taken.cache.spare - 1 := Cache.spare_link hslot
    rw [spare_taken, h₁.spare] at hspare
    exact hspare
  · have hcount : (w₁.taken.cache.link key (newSlot w₁ { customer })).reservedCount =
        w₁.taken.cache.reservedCount + 1 := Cache.reservedCount_link_of_none hslot
    exact hcount.le.trans hroom

/-! ## Calls -/

/-- A ready slot with the basket `b` and a unit of room; it may be `held`. -/
structure Handy (slot : Slot Basket) (b : Basket) : Prop where
  stage : slot.stage = .ready
  payload : slot.payload = some b
  removePending : slot.removePending = false
  reserved : slot.reserved = true

/-- The world after the session of `key` was checked out. -/
def lend (w : World Basket Nat) (key : Key) : World Basket Nat :=
  { w with cache := (w.cache.update key (·.toOut w.now)).markInUse w.now key }

theorem checkOut (h : shop.Stocked (some key) shelf w) (hslot : w.cache.slot? key = some slot)
    (hhandy : Handy slot b) (hrecord : w.store.contents key = none) (howned : shop.Owns key) :
    exec (Op.checkOut shop.surroundings key) w = (.ok b, lend w key) ∧
      shop.Lent key shelf (lend w key) := by
  refine ⟨?_, ⟨h.distinct.update key (·.toOut w.now), ?_, ?_, ?_, h.clear, h.now⟩,
    ⟨slot.toOut w.now, ?_, ?_, ?_⟩, hrecord, howned⟩
  · have hstep : exec (Op.step slot.stage .get : Op Basket Nat Stage) w = (.ok .inUse, w) := by
      rw [hhandy.stage]
      exact Op.exec_step rfl w
    rw [Op.checkOut, exec_bind_ok (Op.exec_cache w)]
    simp only [hslot]
    rw [exec_bind_ok hstep]
    simp only [hhandy.payload]
    rw [exec_bind_ok (Op.exec_modifyCache _ w), exec_bind_ok (Op.exec_attempt _ _),
      exec_fire_quiet (by decide)]
    simp only [Option.getD_some]
    rw [exec_bind_ok (Op.exec_now _), exec_bind_ok (Op.exec_modifyCache _ _),
      exec_bind_ok (Op.exec_lock _ _), exec_bind_ok (Op.exec_modifyUsage _ _), exec_pure,
      Cache.update_update]
    rfl
  · exact h.rests_of key (fun _ _ => id) (fun _ _ => rfl)
      (fun other hne => Cache.update_other w.cache hne (·.toOut w.now)) (fun _ _ => rfl)
      fun hkey => absurd rfl hkey
  · exact (Cache.spare_update h.distinct hslot (f := (·.toOut w.now)) rfl).trans h.spare
  · have hcount := Cache.reservedCount_update h.distinct hslot (·.toOut w.now)
    have hfull := h.full
    change (w.cache.update key (·.toOut w.now)).reservedCount ≤ _
    rw [show (slot.toOut w.now).reserved = slot.reserved from rfl] at hcount
    omega
  · exact Cache.update_self hslot (·.toOut w.now)
  · exact ⟨rfl, rfl, hhandy.reserved, rfl⟩
  · exact hhandy.removePending

/-- The world after the session of `key` was loaded from its record. -/
def loaded (w : World Basket Nat) (key : Key) (b : Basket) (store : Store) : World Basket Nat :=
  { w with
    cache := ((w.taken.cache.update key (·.toHeld w.now b)).markIdle w.now key).countActivated
    store }

/-- `Op.load` answers the basket in the record and deletes the record. -/
theorem exec_load (hclear : w.store.Clear shop.Owns) (howned : shop.Owns key) (hfits : b.Fits)
    (hrecord : w.store.contents key = some (b.record key shop.now)) :
    ∃ store, exec (Op.load shop.surroundings key) w = (.ok b, { w with store }) ∧
      store.Clear shop.Owns ∧ store.contents = Function.update w.store.contents key none := by
  have hstate : Store.stateOf Basket.codec key (b.record key shop.now) = .ok b :=
    Basket.stateOf_record hfits shop.early shop.late
  have hread := hclear.gate.exec_activate hrecord hstate
  obtain ⟨found, store, hremove, hclear', hcontents⟩ := hclear.called.exec_remove howned
  refine ⟨store, ?_, hclear', hcontents⟩
  have hactivate : exec
      (Op.onStore (Store.activate shop.surroundings.codec key) : Op Basket Nat Basket) w =
      (.ok b, { w with store := w.store.called w.store.backend }) := by
    rw [Op.exec_onStore]
    exact congrArg (fun x => (x.1, { w with store := x.2 })) hread
  have hdelete : exec (Op.onStore (Store.remove key) : Op Basket Nat Bool)
      { w with store := w.store.called w.store.backend } = (.ok found, { w with store }) := by
    rw [Op.exec_onStore, hremove]
  rw [Op.load, exec_bind_ok (Op.exec_attempt _ _), exec_fire_quiet (by decide)]
  dsimp only
  rw [exec_bind_ok hactivate, Op.welcome, exec_bind_ok (Op.exec_attempt _ _),
    exec_fire_quiet (by decide)]
  dsimp only
  rw [exec_bind_ok hdelete]
  rfl

/-- `Op.settle` makes the placeholder of `key` a ready slot with the basket of its record, which is
deleted. -/
theorem settle (h : shop.Stocked (some key) shelf w) (hslot : w.cache.slot? key = some slot)
    (hplaceholder : slot.IsPlaceholder) (hfits : b.Fits) (howned : shop.Owns key)
    (hrecord : w.store.contents key = some (b.record key shop.now))
    (hroom : w.cache.reservedCount < shop.settings.maxSize) :
    ∃ store, exec (Op.settle shop.surroundings key) w.taken = (.ok (), loaded w key b store) ∧
      shop.Stocked (some key) shelf (loaded w key b store) ∧ store.contents key = none := by
  obtain ⟨store, hload, hclear, hcontents⟩ := exec_load
    (w := { w.taken with
      cache := w.taken.cache.update key fun slot => { slot with reserved := true } })
    h.clear howned hfits hrecord
  refine ⟨store, ?_, ⟨?_, ?_, ?_, ?_, hclear, h.now⟩, ?_⟩
  · have hstep : exec (Op.step .passivated .activate : Op Basket Nat Stage) w.taken =
        (.ok .ready, w.taken) := Op.exec_step rfl _
    rw [Op.settle, exec_bind_ok hstep, exec_bind_ok (Op.exec_modifyCache _ _),
      exec_bind_ok (Op.exec_attempt _ _), hload]
    dsimp only
    rw [exec_bind_ok (Op.exec_now _), exec_bind_ok (Op.exec_modifyCache _ _),
      exec_bind_ok (Op.exec_lock _ _), exec_bind_ok (Op.exec_modifyUsage _ _), Op.exec_modifyCounters,
      Cache.update_update]
    rfl
  · exact h.distinct.update key (·.toHeld w.now b)
  · exact h.rests_of key (fun _ _ => id) (fun _ _ => rfl)
      (fun other hne => Cache.update_other w.taken.cache hne (·.toHeld w.now b))
      (fun other hne => (congrFun hcontents other).trans (Function.update_of_ne hne.symm _ _))
      fun hkey => absurd rfl hkey
  · have hspare := Cache.spare_update_reserve (c := w.taken.cache) h.distinct hslot
      hplaceholder.reserved (f := (·.toHeld w.now b)) rfl
    rw [spare_taken, h.spare] at hspare
    exact hspare
  · have hcount := Cache.reservedCount_update (c := w.taken.cache) h.distinct hslot
      (·.toHeld w.now b)
    rw [hplaceholder.reserved, if_neg (by decide),
      if_pos (show (slot.toHeld w.now b).reserved = true from rfl)] at hcount
    exact hcount.le.trans hroom
  · rw [hcontents, Function.update_self]

/-- A key may be `busy` though it rests. -/
theorem busyWith (h : shop.Stocked none shelf w) (key : Key) : shop.Stocked (some key) shelf w where
  distinct := h.distinct
  rests other _ := h.rests other (by simp)
  spare := h.spare
  full := h.full
  clear := h.clear
  now := h.now

theorem promote (h : shop.Stocked busy shelf w) (key : Key) :
    shop.Stocked busy shelf { w with cache := w.cache.promote key } where
  distinct := h.distinct.promote key
  rests other hother := by
    rw [show ({ w with cache := w.cache.promote key } : World Basket Nat).cache.slot? other = _ from
      Cache.slot?_promote _ _ _]
    exact h.rests other hother
  spare := (Cache.spare_promote h.distinct key).trans h.spare
  full := (Cache.reservedCount_promote h.distinct key).le.trans h.full
  clear := h.clear
  now := h.now

/-- The world after `Op.announce` of a key with a record. -/
def announced (w : World Basket Nat) (key : Key) : World Basket Nat :=
  { w with
    cache := w.cache.link key (Op.placeholder w)
    stays := w.stays + 1
    store := w.store.called w.store.backend }

/-- The world after `Op.announce` of a key without record. -/
def sentAway (w : World Basket Nat) (key : Key) : World Basket Nat :=
  { announced w key with
    cache := (announced w key).cache.unlink key
    signals := w.signals + 1 }

theorem exec_announce (h : shop.Stocked none shelf w) (howned : shop.Owns key) :
    exec (Op.announce key) w = if (w.store.contents key).isSome then (.ok (), announced w key)
      else (.error (.notFound key), sentAway w key) := by
  rw [Op.announce, exec_bind_ok (Op.exec_linkPlaceholder _ _), exec_bind_ok (Op.exec_attempt _ _),
    Op.exec_onStore, h.clear.exec_holds howned]
  dsimp only
  cases (w.store.contents key).isSome <;> rfl

theorem announce (h : shop.Stocked none shelf w) (hslot : w.cache.slot? key = none) :
    shop.Stocked (some key) shelf (announced w key) where
  distinct := h.distinct.link key _
  rests := h.rests_of key (fun _ _ _ => by simp) (fun _ _ => rfl)
    (fun _ hne => Cache.link_other _ _ hne) (fun _ _ => rfl) fun hkey => absurd rfl hkey
  spare := by
    have hspare : (w.cache.link key (Op.placeholder w)).spare = w.cache.spare - 0 :=
      Cache.spare_link hslot
    rw [h.spare] at hspare
    exact hspare
  full := by
    have hcount : (w.cache.link key (Op.placeholder w)).reservedCount =
        w.cache.reservedCount + 0 := Cache.reservedCount_link_of_none hslot
    exact hcount.le.trans h.full
  clear := h.clear.called
  now := h.now

/-- `Op.activate` of a key with a basket and no slot makes it `Handy`. -/
theorem activate (h : shop.Stocked none shelf w) (hshelf : shelf key = some b)
    (hslot : w.cache.slot? key = none) :
    ∃ w' slot, exec (Op.activate shop.surroundings key) w = (.ok (), w') ∧
      shop.Stocked (some key) shelf w' ∧ w'.cache.slot? key = some slot ∧ Handy slot b ∧
      w'.store.contents key = none ∧ shop.Owns key ∧ Turnover 0 0 w w' := by
  obtain ⟨hrecord, hfits, howned⟩ := h.away (by simp) hshelf hslot
  have hannounce := h.exec_announce howned
  rw [hrecord, if_pos (Option.isSome_some)] at hannounce
  have hplaceholder : (announced w key).cache.slot? key = some (Op.placeholder w) :=
    Cache.link_self _ _ _
  have hmodest : Modest (some key) (announced w key) := by
    intro other slot hbusy hslot
    cases hbusy
    rw [hplaceholder] at hslot
    cases hslot
    exact ⟨rfl, rfl⟩
  obtain ⟨w₁, hreserve, h₁, hroom, hspared, hquiet⟩ := (h.announce hslot).reserve hmodest
  obtain ⟨hslot₁, hrecord₁⟩ := hspared key rfl
  obtain ⟨store, hsettle, h₂, hgone⟩ := h₁.settle (hslot₁.trans hplaceholder)
    (Op.isPlaceholder w) hfits howned (hrecord₁.trans hrecord) hroom
  have hannounced : Turnover 0 0 w (announced w key) := ⟨rfl, rfl, rfl⟩
  refine ⟨_, (Op.placeholder w).toHeld w₁.now b, ?_, h₂, ?_, ⟨rfl, rfl, rfl, rfl⟩, hgone, howned,
    hannounced.then (hquiet.then ⟨rfl, rfl, rfl⟩)⟩
  · rw [Op.activate, exec_bind_ok hannounce, exec_bind_ok (Op.exec_attempt _ _), hreserve]
    exact hsettle
  · exact Cache.update_self (c := w₁.taken.cache) (hslot₁.trans hplaceholder) (·.toHeld w₁.now b)

theorem patience_eq : shop.surroundings.patience = twoTo 64 - 1 + 1 := by
  change Workload.patience = _
  decide

theorem exec_get_of_none (hslot : w.cache.slot? key = none) :
    exec (Op.get shop.surroundings key) w = exec (do
      Op.activate shop.surroundings key
      Op.checkOut shop.surroundings key) w := by
  rw [Op.get, patience_eq, Op.getLooking, exec_bind_ok (Op.exec_modifyCache _ _),
    exec_bind_ok (Op.exec_cache _)]
  simp only [Cache.promote_of_none hslot, hslot]

theorem exec_get_of_ready (hslot : w.cache.slot? key = some slot) (hready : slot.IsReady b) :
    exec (Op.get shop.surroundings key) w =
      exec (Op.checkOut shop.surroundings key) { w with cache := w.cache.promote key } := by
  rw [Op.get, patience_eq, Op.getLooking, exec_bind_ok (Op.exec_modifyCache _ _),
    exec_bind_ok (Op.exec_cache _)]
  simp only [Cache.slot?_promote, hslot, hready.held, hready.stage, Bool.false_eq_true, if_false]

/-- `Op.get` of a key with a basket answers it. -/
theorem get (h : shop.Stocked none shelf w) (hshelf : shelf key = some b) :
    ∃ w', exec (Op.get shop.surroundings key) w = (.ok b, w') ∧ shop.Lent key shelf w' ∧
      Turnover 0 0 w w' := by
  cases hslot : w.cache.slot? key with
  | none =>
    obtain ⟨w₁, slot, hactivate, h₁, hslot₁, hhandy, hrecord, howned, hquiet⟩ :=
      h.activate hshelf hslot
    obtain ⟨hout, hlent⟩ := h₁.checkOut hslot₁ hhandy hrecord howned
    refine ⟨lend w₁ key, ?_, hlent, hquiet.then ⟨rfl, rfl, rfl⟩⟩
    rw [exec_get_of_none hslot, exec_bind_ok hactivate, hout]
  | some slot =>
    obtain ⟨b', hb', hready, -, howned, hrecord⟩ := h.ready (by simp) hslot
    obtain rfl : b' = b := Option.some.inj (hb'.symm.trans hshelf)
    have hslot₁ : (w.cache.promote key).slot? key = some slot :=
      (Cache.slot?_promote _ _ _).trans hslot
    obtain ⟨hout, hlent⟩ := ((h.busyWith key).promote key).checkOut hslot₁
      ⟨hready.stage, hready.payload, hready.removePending, hready.reserved⟩ hrecord howned
    refine ⟨_, (exec_get_of_ready hslot hready).trans hout, hlent, ⟨rfl, ?_, ?_⟩⟩
    · exact congrArg Counters.created (Cache.promote_counters w.cache key)
    · exact congrArg Counters.removed (Cache.promote_counters w.cache key)

/-- `Op.get` of a key without basket answers `.notFound`. -/
theorem get_missing (h : shop.Stocked none shelf w) (howned : shop.Owns key)
    (hshelf : shelf key = none) :
    ∃ w', exec (Op.get shop.surroundings key) w = (.error (.notFound key), w') ∧
      shop.Stocked none shelf w' ∧ Turnover 0 0 w w' := by
  obtain ⟨hslot, hrecord⟩ := h.missing (by simp) hshelf
  have hannounce := h.exec_announce howned
  rw [hrecord, howned.fresh, if_neg (by decide)] at hannounce
  have hlinked := h.announce hslot
  refine ⟨sentAway w key, ?_,
    ⟨hlinked.distinct.unlink key, ?_, ?_, ?_, hlinked.clear, hlinked.now⟩, ⟨rfl, rfl, rfl⟩⟩
  · rw [exec_get_of_none hslot, exec_bind_error]
    rw [Op.activate, exec_bind_error hannounce]
  · refine hlinked.rests_of key (fun other hne _ hbusy => hne (Option.some.inj hbusy))
      (fun _ _ => rfl) (fun other hne => Cache.unlink_other _ hne) (fun _ _ => rfl) fun _ => ?_
    rw [hshelf, show (sentAway w key).cache.slot? key = none from Cache.unlink_self _ _,
      show (sentAway w key).store.contents key = shop.others key from hrecord]
    exact .absent
  · exact (Cache.spare_unlink hlinked.distinct key).trans hlinked.spare
  · have hcount := Cache.reservedCount_unlink hlinked.distinct (Cache.link_self _ _ _)
    have hfull := hlinked.full
    change ((announced w key).cache.unlink key).reservedCount ≤ _
    exact (Nat.le_of_add_right_le hcount.le).trans hfull

/-- The world after the slot of `key` was removed. -/
def dropped (w : World Basket Nat) (key : Key) : World Basket Nat :=
  { w with
    cache := (w.cache.unlink key).countRemoved
    signals := w.signals + 1 }

/-- `Op.remove` of a key with a slot takes its basket from the shelf. -/
theorem remove (h : shop.Stocked none shelf w) (hslot : w.cache.slot? key = some slot) :
    ∃ w', exec (Op.remove shop.surroundings key) w = (.ok (), w') ∧
      shop.Stocked none (Function.update shelf key none) w' ∧ Turnover 0 1 w w' := by
  obtain ⟨b, hb, hready, hfits, howned, hrecord⟩ := h.ready (by simp) hslot
  refine ⟨dropped w key, ?_, ⟨h.distinct.unlink key, ?_, ?_, ?_, h.clear, h.now⟩, ⟨rfl, rfl, rfl⟩⟩
  · have hstep : exec (Op.step .ready .remove : Op Basket Nat Stage) w = (.ok .removed, w) :=
      Op.exec_step rfl w
    rw [Op.remove, patience_eq, Op.removeLooking, exec_bind_ok (Op.exec_cache _)]
    simp only [hslot, hready.held, hready.stage, Bool.false_eq_true, if_false]
    rw [exec_bind_ok hstep, exec_bind_ok (Op.exec_modifyCache _ _), Op.destroy,
      exec_bind_ok (Op.exec_attempt _ _), exec_fire_quiet (by decide),
      exec_bind_ok (Op.exec_unlink _ _), exec_bind_ok (Op.exec_modifyCounters _ _)]
    dsimp only
    rw [Cache.unlink_update]
    · rfl
    · exact fun _ => rfl
  · refine h.rests_of key (fun _ _ => id) (fun other hne => Function.update_of_ne hne.symm _ _)
      (fun other hne => Cache.unlink_other _ hne) (fun _ _ => rfl) fun _ => ?_
    rw [Function.update_self,
      show (dropped w key).cache.slot? key = none from Cache.unlink_self _ _,
      show (dropped w key).store.contents key = none from hrecord, ← howned.fresh]
    exact .absent
  · exact (Cache.spare_unlink h.distinct key).trans h.spare
  · have hcount := Cache.reservedCount_unlink h.distinct hslot
    exact (Nat.le_of_add_right_le hcount.le).trans h.full

/-! ## Passivating everything -/

/-- Every slot has its `stay` in `stays`. -/
def Covers (stays : List (Key × Nat)) (w : World Basket Nat) : Prop :=
  ∀ key slot, w.cache.slot? key = some slot → (key, slot.stay) ∈ stays

/-- A `stay` that no slot has any more can be left out. -/
theorem Covers.rest {stay : Nat} {rest : List (Key × Nat)} (h : Covers ((key, stay) :: rest) w)
    (hslots : ∀ other slot, w'.cache.slot? other = some slot → w.cache.slot? other = some slot)
    (hover : ∀ slot, w'.cache.slot? key = some slot → slot.stay ≠ stay) : Covers rest w' := by
  intro other slot hslot
  obtain heq | hmem := List.mem_cons.mp (h other slot (hslots other slot hslot))
  · cases heq
    exact absurd rfl (hover slot hslot)
  · exact hmem

theorem passivateStays (stays : List (Key × Nat)) (report : SweepReport)
    (h : shop.Stocked none shelf w) (hcovers : Covers stays w) :
    ∃ report' w', exec (Op.passivateStays shop.surroundings stays report) w = (.ok report', w') ∧
      shop.Stocked none shelf w' ∧ (∀ key, w'.cache.slot? key = none) ∧ Turnover 0 0 w w' := by
  induction stays generalizing report w with
  | nil =>
    refine ⟨report, w, rfl, h, fun key => ?_, ⟨rfl, rfl, rfl⟩⟩
    cases hslot : w.cache.slot? key with
    | none => rfl
    | some slot => cases hcovers key slot hslot
  | cons entry rest ih =>
    obtain ⟨key, stay⟩ := entry
    rw [Op.passivateStays, exec_bind_ok (Op.exec_cache _)]
    cases hslot : w.cache.slot? key with
    | none =>
      exact ih report h (hcovers.rest (fun _ _ => id) fun _ hsome => by
        cases hslot.symm.trans hsome)
    | some slot =>
      obtain ⟨b, -, hready, -⟩ := h.ready (by simp) hslot
      dsimp only
      by_cases hstay : slot.stay = stay
      · obtain ⟨store, hpassivate, h₁, -⟩ := h.passivate (by simp) hslot
        have hcounting : exec (Op.passivateCounting shop.surroundings key report) w =
            (.ok { report with passivated := report.passivated + 1 }, packed w key store) := by
          rw [Op.passivateCounting, exec_bind_ok (Op.exec_attempt _ _), hpassivate]
          rfl
        have hgone : (packed w key store).cache.slot? key = none := Cache.unlink_self _ _
        have hslots : ∀ other slot, (packed w key store).cache.slot? other = some slot →
            w.cache.slot? other = some slot := fun other slot hsome => by
          have hne : key ≠ other := by
            rintro rfl
            cases hgone.symm.trans hsome
          exact (Cache.unlink_other _ hne).symm.trans hsome
        obtain ⟨report', w', hrest, h', hnone, hquiet⟩ :=
          ih { report with passivated := report.passivated + 1 } h₁
            (hcovers.rest hslots fun _ hsome => by cases hgone.symm.trans hsome)
        have hpacked : Turnover 0 0 w (packed w key store) := ⟨rfl, rfl, rfl⟩
        refine ⟨report', w', ?_, h', hnone, hpacked.then hquiet⟩
        rw [if_pos (by simp [hstay, hready.held, hready.stage]), exec_bind_ok hcounting, hrest]
      · rw [if_neg (by simp [hstay])]
        exact ih report h (hcovers.rest (fun _ _ => id) fun _ hsome =>
          Option.some.inj (hslot.symm.trans hsome) ▸ hstay)

/-- `Op.passivateAll` leaves no slot, and keeps `Stocked`. -/
theorem passivateAll (h : shop.Stocked none shelf w) :
    ∃ report w', exec (Op.passivateAll shop.surroundings) w = (.ok report, w') ∧
      shop.Stocked none shelf w' ∧ w'.cache.slots = [] ∧ Turnover 0 0 w w' := by
  obtain ⟨report, w', hstays, h', hnone, hquiet⟩ := h.passivateStays
    (w.cache.slots.map fun e => (e.1, e.2.stay))
    { examined := (w.cache.slots.map fun e => (e.1, e.2.stay)).length } fun key slot hslot =>
      List.mem_map.mpr ⟨_, Cache.mem_of_slot? hslot, rfl⟩
  refine ⟨report, w', ?_, h', ?_, hquiet⟩
  · rw [Op.passivateAll, exec_bind_ok (Op.exec_cache _)]
    exact hstays
  · refine List.eq_nil_iff_forall_not_mem.mpr fun entry hmem => ?_
    have hslot := Cache.slot?_of_mem h'.distinct hmem
    cases (hnone entry.1).symm.trans hslot

end Stocked

namespace Lent

/-- The world after `Op.finish` of `key` with `b`. -/
def returned (w : World Basket Nat) (key : Key) (b : Basket) : World Basket Nat :=
  { w with
    cache := ((w.cache.update key (·.toReady w.now b.countCall)).promote key).markIdle w.now key
    signals := w.signals + 1 }

/-- `Op.finish` puts the basket on the shelf, with one more call counted. -/
theorem finish (h : shop.Lent key shelf w) (hfits : b.countCall.Fits) :
    ∃ w' slot, exec (Op.finish shop.surroundings key b) w = (.ok (), w') ∧
      shop.Stocked none (Function.update shelf key (some b.countCall)) w' ∧
      w'.cache.slot? key = some slot ∧ Turnover 0 0 w w' := by
  obtain ⟨slot, hslot, hout, hpending⟩ := h.out
  have hback : ∀ other, (returned w key b).cache.slot? other =
      (w.cache.update key (·.toReady w.now b.countCall)).slot? other :=
    fun other => Cache.slot?_promote _ _ _
  have hself : (returned w key b).cache.slot? key = some (slot.toReady w.now b.countCall) :=
    (hback key).trans (Cache.update_self hslot (·.toReady w.now b.countCall))
  have hdistinct : (w.cache.update key (·.toReady w.now b.countCall)).Distinct :=
    h.stocked.distinct.update key _
  have hcounters : (returned w key b).cache.counters = w.cache.counters :=
    Cache.promote_counters _ _
  refine ⟨returned w key b, slot.toReady w.now b.countCall, ?_,
    ⟨hdistinct.promote key, ?_, ?_, ?_, h.stocked.clear, h.stocked.now⟩, hself,
    ⟨rfl, congrArg Counters.created hcounters, congrArg Counters.removed hcounters⟩⟩
  · have hstep : exec (Op.step .inUse .finish : Op Basket Nat Stage) w = (.ok .ready, w) :=
      Op.exec_step rfl w
    rw [Op.finish, exec_bind_ok (Op.exec_cache _)]
    simp only [hslot, hout.held, hout.stage, hpending, Bool.false_eq_true, if_false]
    rw [exec_bind_ok hstep, exec_bind_ok (Op.exec_modifyCache _ _), Op.regain,
      exec_bind_ok (Op.exec_attempt _ _), exec_fire, if_pos rfl]
    dsimp only
    rw [exec_bind_ok (Op.exec_now _), exec_bind_ok (Op.exec_modifyCache _ _),
      exec_bind_ok (Op.exec_lock _ _), exec_bind_ok (Op.exec_modifyCache _ _),
      exec_bind_ok (Op.exec_modifyUsage _ _), Op.exec_signal, Cache.update_update]
    rfl
  · refine h.stocked.rests_of key (fun other hne _ hbusy => hne (Option.some.inj hbusy))
      (fun other hne => Function.update_of_ne hne.symm _ _)
      (fun other hne => (hback other).trans (Cache.update_other _ hne _)) (fun _ _ => rfl)
      fun _ => ?_
    rw [Function.update_self, hself,
      show (returned w key b).store.contents key = none from h.record]
    exact .resident (hout.toReady hpending _ _) hfits h.owned
  · exact (Cache.spare_promote hdistinct key).trans
      ((Cache.spare_update h.stocked.distinct hslot (f := (·.toReady w.now b.countCall)) rfl).trans
        h.stocked.spare)
  · have hcount := Cache.reservedCount_update h.stocked.distinct hslot (·.toReady w.now b.countCall)
    have hfull := h.stocked.full
    refine (Cache.reservedCount_promote hdistinct key).le.trans ?_
    rw [show (slot.toReady w.now b.countCall).reserved = slot.reserved from rfl] at hcount
    omega

end Lent

end Shop

end SessionCache
