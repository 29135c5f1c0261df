import SessionCache.Cache.Resident
import SessionCache.Proofs.Association
import SessionCache.Proofs.Cache.Usage

/-!
# Slots

What linking, unlinking, changing and promoting a slot does to the slots of all keys, to the
number of slots that hold a unit of room, and to the order.

* `Cache.slot?_update`, `Cache.slot?_promote` go with `Cache.lookup_link` and `Cache.lookup_unlink`.
* `Cache.reservedCount_unlink`, `Cache.reservedCount_link`, `Cache.reservedCount_update`,
  `Cache.reservedCount_promote`: the number of slots with a unit.
* `Cache.spare`: the units that no slot holds, which go along with the operations under way.
* `Cache.unlink_update`, `Cache.update_update`, `Cache.unlink_link`: changes that come to nothing.
-/

namespace SessionCache

/-! ## Kinds of slots -/

section Kinds

variable {σ : Type}

/-- The slot that `Op.linkPlaceholder` makes: `.passivated` and `held`, without a `payload` and
without a unit of room. -/
structure Slot.IsPlaceholder (slot : Slot σ) : Prop where
  stage : slot.stage = .passivated
  payload : slot.payload = none
  removePending : slot.removePending = false
  reserved : slot.reserved = false
  held : slot.held = true

/-- The slot of a session that is `.ready` with `state`, has its unit of room, and is not `held`. -/
structure Slot.IsReady (slot : Slot σ) (state : σ) : Prop where
  stage : slot.stage = .ready
  payload : slot.payload = some state
  removePending : slot.removePending = false
  reserved : slot.reserved = true
  held : slot.held = false

/-- The slot of a session that is `.inUse`: its `payload` is in a caller's hands, and it has its
unit of room. -/
structure Slot.IsOut (slot : Slot σ) : Prop where
  stage : slot.stage = .inUse
  payload : slot.payload = none
  reserved : slot.reserved = true
  held : slot.held = false

namespace Slot

/-- The slot after `Op.regain`: `.ready` with `state`, used at `now`, not `held`. -/
def toReady (slot : Slot σ) (now : Instant) (state : σ) : Slot σ :=
  { slot with payload := some state, stage := .ready, lastAccess := now, held := false }

/-- The slot after `Op.settle`, which leaves it `held`: `.ready` with `state`, used at `now`, with a
unit of room. -/
def toHeld (slot : Slot σ) (now : Instant) (state : σ) : Slot σ :=
  { slot with reserved := true, payload := some state, stage := .ready, lastAccess := now }

/-- `toHeld` once it is no more `held`. -/
def toSettled (slot : Slot σ) (now : Instant) (state : σ) : Slot σ :=
  { slot.toReady now state with reserved := true }

/-- The slot after `Op.checkOut`: `.inUse`, used at `now`, without a `payload`. -/
def toOut (slot : Slot σ) (now : Instant) : Slot σ :=
  { slot with payload := none, stage := .inUse, lastAccess := now, held := false }

/-- The slot after `Op.takeBack`: as it was, with `state`, not `held`. -/
def toKept (slot : Slot σ) (state : σ) : Slot σ := { slot with payload := some state, held := false }

/-- The slot after `Op.removeOnFinish`. -/
def toPending (slot : Slot σ) : Slot σ := { slot with removePending := true }

theorem IsReady.toOut {slot : Slot σ} {state : σ} (h : slot.IsReady state) (now : Instant) :
    (slot.toOut now).IsOut := ⟨rfl, rfl, h.reserved, rfl⟩

theorem IsReady.toKept {slot : Slot σ} {state : σ} (h : slot.IsReady state) (state' : σ) :
    (slot.toKept state').IsReady state' := ⟨h.stage, rfl, h.removePending, h.reserved, rfl⟩

theorem IsOut.toPending {slot : Slot σ} (h : slot.IsOut) : slot.toPending.IsOut :=
  ⟨h.stage, h.payload, h.reserved, h.held⟩

theorem IsOut.toReady {slot : Slot σ} (h : slot.IsOut) (hp : slot.removePending = false)
    (now : Instant) (state : σ) : (slot.toReady now state).IsReady state :=
  ⟨rfl, rfl, hp, h.reserved, rfl⟩

theorem IsPlaceholder.toSettled {slot : Slot σ} (h : slot.IsPlaceholder) (now : Instant) (state : σ) :
    (slot.toSettled now state).IsReady state := ⟨rfl, rfl, h.removePending, rfl, rfl⟩

end Slot

end Kinds

namespace Cache

variable {σ : Type} {c : Cache σ} {key other : Key} {slot : Slot σ}

/-- Each key has one slot at most. -/
def Distinct (c : Cache σ) : Prop := c.keys.Nodup

/-- The number of slots with `reserved`. -/
def reservedCount (c : Cache σ) : Nat := c.slots.countP (·.2.reserved)

/-! ## Slots by their keys -/

@[simp] theorem link_usage (c : Cache σ) (key : Key) (slot : Slot σ) :
    (c.link key slot).usage = c.usage := rfl

@[simp] theorem link_occupied (c : Cache σ) (key : Key) (slot : Slot σ) :
    (c.link key slot).occupied = c.occupied := rfl

theorem update_slots (c : Cache σ) (key : Key) (f : Slot σ → Slot σ) :
    (c.update key f).slots = c.slots.map (Assoc.change key f) := rfl

@[simp] theorem update_usage (c : Cache σ) (key : Key) (f : Slot σ → Slot σ) :
    (c.update key f).usage = c.usage := rfl

@[simp] theorem update_occupied (c : Cache σ) (key : Key) (f : Slot σ → Slot σ) :
    (c.update key f).occupied = c.occupied := rfl

@[simp] theorem update_counters (c : Cache σ) (key : Key) (f : Slot σ → Slot σ) :
    (c.update key f).counters = c.counters := rfl

@[simp, grind =]
theorem slot?_update (c : Cache σ) (key other : Key) (f : Slot σ → Slot σ) :
    (c.update key f).slot? other =
      if other = key then (c.slot? other).map f else c.slot? other := by
  rw [slot?, update_slots, Assoc.lookup_map]
  rfl

theorem promote_of_none (h : c.slot? key = none) : c.promote key = c := by
  simp only [promote, h]

theorem promote_of_some (h : c.slot? key = some slot) : c.promote key = c.link key slot := by
  simp only [promote, h]

@[simp, grind =]
theorem slot?_promote (c : Cache σ) (key other : Key) :
    (c.promote key).slot? other = c.slot? other := by
  cases h : c.slot? key with
  | none => rw [promote_of_none h]
  | some slot =>
    rw [promote_of_some h, lookup_link]
    split
    · rename_i ho; rw [ho, h]
    · rfl

@[simp] theorem promote_usage (c : Cache σ) (key : Key) : (c.promote key).usage = c.usage := by
  unfold promote; split <;> rfl

@[simp] theorem promote_occupied (c : Cache σ) (key : Key) :
    (c.promote key).occupied = c.occupied := by
  unfold promote; split <;> rfl

@[simp] theorem promote_counters (c : Cache σ) (key : Key) :
    (c.promote key).counters = c.counters := by
  unfold promote; split <;> rfl

theorem slot?_of_mem (hc : c.Distinct) (h : (key, slot) ∈ c.slots) : c.slot? key = some slot :=
  Assoc.lookup_of_mem hc h

theorem mem_of_slot? (h : c.slot? key = some slot) : (key, slot) ∈ c.slots := Assoc.mem_of_lookup h

theorem mem_keys_iff : key ∈ c.keys ↔ ∃ slot, c.slot? key = some slot := by
  constructor
  · intro h
    have hs : (c.slots.lookup key).isSome := by
      obtain ⟨e, he, rfl⟩ := List.mem_map.mp h
      rw [List.lookup_isSome_iff]
      exact ⟨e, he, beq_self_eq_true _⟩
    exact Option.isSome_iff_exists.mp hs
  · rintro ⟨slot, h⟩
    exact List.mem_map.mpr ⟨_, mem_of_slot? h, rfl⟩

theorem not_mem_keys_iff : key ∉ c.keys ↔ c.slot? key = none := by
  rw [mem_keys_iff, ← Option.not_isSome_iff_eq_none, Option.isSome_iff_exists]

/-! ## Distinct keys -/

theorem Distinct.update (hc : c.Distinct) (key : Key) (f : Slot σ → Slot σ) :
    (c.update key f).Distinct := by
  rw [Distinct, keys, update_slots, Assoc.map_change_fst]
  exact hc

theorem Distinct.unlink (hc : c.Distinct) (key : Key) : (c.unlink key).Distinct :=
  Assoc.nodup_filter hc _

theorem Distinct.link (hc : c.Distinct) (key : Key) (slot : Slot σ) :
    (c.link key slot).Distinct := by
  refine List.nodup_cons.mpr ⟨fun h => ?_, Assoc.nodup_filter hc _⟩
  obtain ⟨e, he, hk⟩ := List.mem_map.mp h
  simp only [List.mem_filter, decide_eq_true_eq] at he
  exact he.2 hk

theorem Distinct.promote (hc : c.Distinct) (key : Key) : (c.promote key).Distinct := by
  unfold Cache.promote
  split
  · exact hc.link _ _
  · exact hc

/-! ## Units of room held by slots -/

theorem reservedCount_unlink (hc : c.Distinct) (h : c.slot? key = some slot) :
    (c.unlink key).reservedCount + (if slot.reserved then 1 else 0) = c.reservedCount :=
  Assoc.countP_filter_ne hc h _

theorem filter_of_none (h : c.slot? key = none) : c.slots.filter (·.1 ≠ key) = c.slots := by
  refine List.filter_eq_self.mpr fun e he => ?_
  have hk : e.1 ≠ key := fun hk => not_mem_keys_iff.mpr h (List.mem_map.mpr ⟨e, he, hk⟩)
  simpa using hk

theorem reservedCount_link_of_none (h : c.slot? key = none) :
    (c.link key slot).reservedCount = c.reservedCount + (if slot.reserved then 1 else 0) := by
  simp only [reservedCount, link, filter_of_none h, List.countP_cons]

theorem reservedCount_update (hc : c.Distinct) (h : c.slot? key = some slot)
    (f : Slot σ → Slot σ) :
    (c.update key f).reservedCount + (if slot.reserved then 1 else 0) =
      c.reservedCount + (if (f slot).reserved then 1 else 0) :=
  Assoc.countP_map hc h _ f

theorem reservedCount_promote (hc : c.Distinct) (key : Key) :
    (c.promote key).reservedCount = c.reservedCount := by
  cases h : c.slot? key with
  | none => rw [promote_of_none h]
  | some slot =>
    have hcount := Assoc.countP_filter_ne hc h (·.2.reserved)
    rw [promote_of_some h]
    simpa only [reservedCount, link, List.countP_cons] using hcount

theorem occupied_unlink (h : c.slot? key = some slot) :
    (c.unlink key).occupied = c.occupied - (if slot.reserved then 1 else 0) := by
  simp only [unlink, h, Option.any_some]
  split <;> simp

/-! ## Units of room that no slot holds -/

/-- `occupied - reservedCount`: the units of room that were given out but are held by no slot. -/
def spare (c : Cache σ) : Int := c.occupied - c.reservedCount

theorem spare_unlink (hc : c.Distinct) (key : Key) : (c.unlink key).spare = c.spare := by
  unfold spare
  cases h : c.slot? key with
  | none =>
    have hslots : (c.unlink key).reservedCount = c.reservedCount :=
      congrArg (List.countP _) (filter_of_none h)
    have hocc : (c.unlink key).occupied = c.occupied := by simp [unlink, h]
    rw [hslots, hocc]
  | some slot =>
    have hcount := reservedCount_unlink hc h
    rw [occupied_unlink h]
    split at hcount
    · rename_i hr; rw [if_pos hr]; omega
    · rename_i hr; rw [if_neg hr]; omega

theorem spare_link (h : c.slot? key = none) :
    (c.link key slot).spare = c.spare - (if slot.reserved then 1 else 0) := by
  rw [spare, spare, link_occupied, reservedCount_link_of_none h]
  split <;> omega

theorem spare_update (hc : c.Distinct) (h : c.slot? key = some slot) {f : Slot σ → Slot σ}
    (hf : (f slot).reserved = slot.reserved) : (c.update key f).spare = c.spare := by
  have hcount := reservedCount_update hc h f
  rw [hf] at hcount
  rw [spare, spare, update_occupied]
  omega

/-- A slot that becomes `reserved` takes its unit off `spare`. -/
theorem spare_update_reserve (hc : c.Distinct) (h : c.slot? key = some slot)
    (hr : slot.reserved = false) {f : Slot σ → Slot σ} (hf : (f slot).reserved = true) :
    (c.update key f).spare = c.spare - 1 := by
  have hcount := reservedCount_update hc h f
  rw [hr, hf] at hcount
  simp only [Bool.false_eq_true, if_false, if_true] at hcount
  rw [spare, spare, update_occupied]
  omega

theorem spare_promote (hc : c.Distinct) (key : Key) : (c.promote key).spare = c.spare := by
  rw [spare, spare, promote_occupied, reservedCount_promote hc]

/-! ## Changes that come to nothing -/

theorem filter_map_change (l : List (Key × Slot σ)) (key : Key) (f : Slot σ → Slot σ) :
    (l.map (Assoc.change key f)).filter (·.1 ≠ key) = l.filter (·.1 ≠ key) := by
  rw [List.filter_map]
  have hp : (fun e : Key × Slot σ => decide (e.1 ≠ key)) ∘ Assoc.change key f =
      fun e => decide (e.1 ≠ key) := funext fun e => by simp [Assoc.change_fst]
  rw [hp]
  refine (List.map_congr_left fun e he => ?_).trans (List.map_id _)
  exact if_neg (by simpa using (List.mem_filter.mp he).2)

/-- `unlink key` takes away what `update key f` changed, where `f` keeps `reserved`. -/
theorem unlink_update (c : Cache σ) (key : Key) {f : Slot σ → Slot σ}
    (hf : ∀ slot, (f slot).reserved = slot.reserved) :
    (c.update key f).unlink key = c.unlink key := by
  have hany : ((c.slot? key).map f).any (·.reserved) = (c.slot? key).any (·.reserved) := by
    cases c.slot? key with
    | none => rfl
    | some slot => exact hf slot
  have hslots : (c.update key f).slots.filter (·.1 ≠ key) = c.slots.filter (·.1 ≠ key) :=
    filter_map_change _ _ _
  simp only [unlink, hslots, slot?_update, if_true, hany, update_usage, update_occupied,
    update_counters]

theorem update_update (c : Cache σ) (key : Key) (f g : Slot σ → Slot σ) :
    (c.update key f).update key g = c.update key fun slot => g (f slot) := by
  simp only [update, List.map_map, mk.injEq, and_true]
  refine List.map_congr_left fun e _ => ?_
  by_cases h : e.1 = key <;> simp [h]

/-- `link` then `unlink` of a key that had neither a slot nor an entry in the tracker changes
nothing, if the slot is not `reserved`. -/
theorem unlink_link (h : c.slot? key = none) (hu : c.usage.find? key = none)
    (hr : slot.reserved = false) : (c.link key slot).unlink key = c := by
  have husage : c.usage.forget key = c.usage := by
    have : c.usage.entries.filter (·.key ≠ key) = c.usage.entries :=
      List.filter_eq_self.mpr fun e he => by
        simpa using (List.find?_eq_none.mp hu) e he
    simp only [Usage.forget, this]
  have hslots : (c.link key slot).slots.filter (·.1 ≠ key) = c.slots := by
    rw [link, List.filter_cons_of_neg (by simp), filter_of_none h, filter_of_none h]
  simp only [unlink, hslots, lookup_link, if_true, Option.any_some, hr, link_usage, husage]
  rfl

/-! ## Changes that operations make along with others -/

/-- `Counters.removed` goes up by one. -/
def countRemoved (c : Cache σ) : Cache σ :=
  { c with counters := { c.counters with removed := c.counters.removed + 1 } }

/-- `Counters.created` goes up by one. -/
def countCreated (c : Cache σ) : Cache σ :=
  { c with counters := { c.counters with created := c.counters.created + 1 } }

/-- `Counters.passivationFailures` goes up by one. -/
def countFailure (c : Cache σ) : Cache σ :=
  { c with counters := { c.counters with passivationFailures := c.counters.passivationFailures + 1 } }

/-- `Counters.passivated` goes up by one. -/
def countPassivated (c : Cache σ) : Cache σ :=
  { c with counters := { c.counters with passivated := c.counters.passivated + 1 } }

/-- `Counters.activated` goes up by one. -/
def countActivated (c : Cache σ) : Cache σ :=
  { c with counters := { c.counters with activated := c.counters.activated + 1 } }

/-- `Usage.markIdle` on `usage`. -/
def markIdle (c : Cache σ) (now : Instant) (key : Key) : Cache σ :=
  { c with usage := c.usage.markIdle now key }

/-- `Usage.markInUse` on `usage`. -/
def markInUse (c : Cache σ) (now : Instant) (key : Key) : Cache σ :=
  { c with usage := c.usage.markInUse now key }

/-- Takes the placeholder of `key` away, and with it a unit of room that no slot held. -/
def retract (c : Cache σ) (key : Key) : Cache σ :=
  (c.update key fun slot => { slot with reserved := true }).unlink key

@[simp] theorem markIdle_usage (c : Cache σ) (now : Instant) (key : Key) :
    (c.markIdle now key).usage = c.usage.markIdle now key := rfl

@[simp, grind =] theorem slot?_markIdle (c : Cache σ) (now : Instant) (key other : Key) :
    (c.markIdle now key).slot? other = c.slot? other := rfl

theorem markIdle_promote (c : Cache σ) (now : Instant) (key other : Key) :
    (c.promote key).markIdle now other = (c.markIdle now other).promote key := by
  unfold promote
  rw [slot?_markIdle]
  cases c.slot? key <;> rfl

@[simp, grind =]
theorem slot?_retract (c : Cache σ) (key other : Key) :
    (c.retract key).slot? other = if other = key then none else c.slot? other := by
  rw [retract, lookup_unlink, slot?_update]
  split <;> rfl

theorem Distinct.retract (hc : c.Distinct) (key : Key) : (c.retract key).Distinct :=
  (hc.update key _).unlink key

theorem occupied_retract (h : c.slot? key = some slot) :
    (c.retract key).occupied = c.occupied - 1 := by
  have hheld : (c.update key fun slot => { slot with reserved := true }).slot? key =
      some { slot with reserved := true } := by
    simp [h]
  rw [retract, occupied_unlink hheld]
  simp

theorem spare_retract (hc : c.Distinct) (h : c.slot? key = some slot) (hr : slot.reserved = false) :
    (c.retract key).spare = c.spare - 1 := by
  rw [retract, spare_unlink (hc.update key _), spare_update_reserve hc h hr rfl]

/-! ## The slot of the key itself, and of others -/

theorem link_self (c : Cache σ) (key : Key) (slot : Slot σ) :
    (c.link key slot).slot? key = some slot := by simp

theorem link_other (c : Cache σ) (slot : Slot σ) (h : key ≠ other) :
    (c.link key slot).slot? other = c.slot? other := by simp [h.symm]

theorem unlink_self (c : Cache σ) (key : Key) : (c.unlink key).slot? key = none := by simp

theorem unlink_other (c : Cache σ) (h : key ≠ other) :
    (c.unlink key).slot? other = c.slot? other := by simp [h.symm]

theorem retract_self (c : Cache σ) (key : Key) : (c.retract key).slot? key = none := by simp

theorem retract_other (c : Cache σ) (h : key ≠ other) :
    (c.retract key).slot? other = c.slot? other := by simp [h.symm]

theorem update_self (h : c.slot? key = some slot) (f : Slot σ → Slot σ) :
    (c.update key f).slot? key = some (f slot) := by simp [h]

theorem update_other (c : Cache σ) (h : key ≠ other) (f : Slot σ → Slot σ) :
    (c.update key f).slot? other = c.slot? other := by simp [h.symm]

/-! ## The session to evict -/

/-- `victim?` is a slot that is `.ready` and not `held`, and no slot behind it is both. -/
theorem exists_victim?_split (hc : c.Distinct) (h : c.victim? = some key) :
    ∃ slot front back, c.slots = front ++ (key, slot) :: back ∧ c.slot? key = some slot ∧
      slot.held = false ∧ slot.stage = .ready ∧
      ∀ e ∈ back, e.2.stage = .ready → e.2.held = true := by
  obtain ⟨⟨k, slot⟩, hfind, rfl⟩ := Option.map_eq_some_iff.mp h
  obtain ⟨hp, back, front, hslots, hback⟩ := List.find?_eq_some_iff_append.mp hfind
  simp only [Bool.and_eq_true, Bool.not_eq_true', decide_eq_true_eq] at hp
  have hsplit : c.slots = front.reverse ++ (k, slot) :: back.reverse := by
    rw [← List.reverse_reverse c.slots, hslots]
    simp
  refine ⟨slot, _, _, hsplit, slot?_of_mem hc (by rw [hsplit]; simp), hp.1, hp.2,
    fun e he hready => ?_⟩
  simpa [hready] using hback e (List.mem_reverse.mp he)

theorem slot?_of_victim? (hc : c.Distinct) (h : c.victim? = some key) :
    ∃ slot, c.slot? key = some slot ∧ slot.held = false ∧ slot.stage = .ready := by
  obtain ⟨slot, -, -, -, hslot, hfree, hready, -⟩ := exists_victim?_split hc h
  exact ⟨slot, hslot, hfree, hready⟩

/-- Where `victim?` is `none`, each slot that is `.ready` is `held`. -/
theorem held_of_victim?_none (hv : c.victim? = none) (hslot : c.slot? key = some slot)
    (hready : slot.stage = .ready) : slot.held = true := by
  have hfind := Option.map_eq_none_iff.mp hv
  simpa [hready] using List.find?_eq_none.mp hfind _ (List.mem_reverse.mpr (mem_of_slot? hslot))

end Cache

end SessionCache
