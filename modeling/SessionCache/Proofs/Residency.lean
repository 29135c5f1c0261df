import SessionCache.Proofs.Traffic.Recording
import SessionCache.Proofs.Traffic.Steps

/-!
# Room and residency

How many sessions are in memory. `occupied` counts units of room; each is held by a slot or by an
operation under way, there are never more of them than the settings allow, and none is given back
that was not given out. While no operation is under way, each key that has a slot is tracked, is
ready or checked out, and is in the hands of a caller exactly if it is checked out.

* `Traffic.Balanced` holds at every point of a run, `Traffic.Settled` where no operation is under
  way (`Run.residency`).
* `Scene.Paces`: what one shift may do to `occupied`. `Paced` is a path that heeds it.
-/

namespace SessionCache

variable {σ ι ω : Type} {s : Surroundings σ ι ω}

/-! ## Units of room -/

/-- `occupied` counts the slots with `reserved` and the tasks with a unit, is at most `maxSize`, and
is positive wherever a unit may be given back. -/
structure Traffic.Balanced (s : Surroundings σ ι ω) (t : Traffic σ ι ω) : Prop where
  units : t.world.cache.occupied =
    (t.world.cache.reservedCount : Int) + (t.tasks.countP (·.hasUnit) : Nat)
  bound : t.world.cache.occupied ≤ s.settings.maxSize
  /-- `occupied` is positive where a slot is `reserved`. -/
  slot : ∀ key slot, t.world.cache.slot? key = some slot → slot.reserved = true →
    0 < t.world.cache.occupied
  /-- `occupied` is positive where a task has a unit. -/
  task : ∀ task ∈ t.tasks, task.hasUnit = true → 0 < t.world.cache.occupied

/-- From `x` to `x'`, `occupied` goes up by one only below `maxSize`, goes down by one only if
positive, or stays. -/
def Scene.Paces (s : Surroundings σ ι ω) (x x' : Scene σ ι ω) : Prop :=
  x'.cache.occupied = x.cache.occupied ∨
    x.cache.occupied < s.settings.maxSize ∧ x'.cache.occupied = x.cache.occupied + 1 ∨
    0 < x.cache.occupied ∧ x'.cache.occupied = x.cache.occupied - 1

/-- A `Path` each shift of which `Paces`. -/
inductive Paced (s : Surroundings σ ι ω) : Scene σ ι ω → List (Deed σ) → Scene σ ι ω → Prop where
  | nil {x : Scene σ ι ω} : Paced s x [] x
  | cons {x x' x'' : Scene σ ι ω} {ds ds' : List (Deed σ)} (h : Shift s x ds x')
      (hp : x.Paces s x') (h' : Paced s x' ds' x'') : Paced s x (ds ++ ds') x''

namespace Sound

variable {x : Scene σ ι ω} {key : Key} {slot : Slot σ}

theorem occupied (hx : Sound s x) :
    x.cache.occupied = (x.cache.reservedCount : Int) + (x.units : Nat) := by
  have hroom := hx.room
  unfold Cache.spare at hroom
  omega

theorem pos_of_slot (hx : Sound s x) (h : x.cache.slot? key = some slot)
    (hr : slot.reserved = true) : 0 < x.cache.occupied := by
  have hcount : 0 < x.cache.reservedCount :=
    List.countP_pos_iff.mpr ⟨(key, slot), Cache.mem_of_slot? h, hr⟩
  have hocc := hx.occupied
  omega

theorem pos_of_task (hx : Sound s x) {task : Task ι} (h : task ∈ x.tasks)
    (hu : task.hasUnit = true) : 0 < x.cache.occupied := by
  have hcount : 0 < x.units := Multiset.countP_pos.mpr ⟨task, h, hu⟩
  have hocc := hx.occupied
  omega

theorem paces_unlink (hx : Sound s x) (h : x.cache.slot? key = some slot) :
    (x.cache.unlink key).occupied = x.cache.occupied ∨
      0 < x.cache.occupied ∧ (x.cache.unlink key).occupied = x.cache.occupied - 1 := by
  rw [Cache.occupied_unlink h]
  split
  · rename_i hr; exact .inr ⟨hx.pos_of_slot h hr, rfl⟩
  · exact .inl (Int.sub_zero _)

theorem paces_retract (hx : Sound s x) {rest : Multiset (Task ι)}
    (h : x.tasks = .settling key ::ₘ rest) :
    0 < x.cache.occupied ∧ (x.cache.retract key).occupied = x.cache.occupied - 1 := by
  obtain ⟨slot, hslot, -⟩ := hx.at_task h (decide_eq_true rfl)
  exact ⟨hx.pos_of_task (h ▸ Multiset.mem_cons_self _ _) rfl, Cache.occupied_retract hslot⟩

end Sound

/-- Each shift `Paces`: it takes no unit that there is not, and gives back none that was not given
out. -/
theorem Shift.paces {x x' : Scene σ ι ω} {ds : List (Deed σ)} (hx : Sound s x)
    (h : Shift s x ds x') : x.Paces s x' := by
  cases h with
  | pass | count | meet | edit | tamper | purge | attend | ask | announce | quit | settle | enter
  | checkOut | stay | defer | giveIn | erase | spoil | loseParked => exact .inl rfl
  | promote key => exact .inl (Cache.promote_occupied x.cache key)
  | take _ _ hc => exact .inr (.inl ⟨hc, rfl⟩)
  | abandon h =>
    obtain ⟨slot, hslot, -⟩ := hx.at_task h (decide_eq_true rfl)
    exact (hx.paces_unlink hslot).imp_right .inr
  | retreat h | loseComing h => exact .inr (.inr (hx.paces_retract h))
  | unmade _ h => exact .inr (.inr ⟨hx.pos_of_task (h ▸ Multiset.mem_cons_self _ _) rfl, rfl⟩)
  | park h | leave h | lose _ h | leaveOut _ h | loseOut _ h =>
    exact (hx.paces_unlink h).imp_right .inr

theorem Path.paced {x x' : Scene σ ι ω} {ds : List (Deed σ)} (hx : Sound s x)
    (h : Path s x ds x') : Paced s x ds x' := by
  induction h with
  | nil => exact .nil
  | cons hs _ ih => exact .cons hs (hs.paces hx) (ih (hs.sound hx))

theorem Sound.balanced {t : Traffic σ ι ω} (ht : Sound s t.scene) : t.Balanced s where
  units := ht.occupied
  bound := ht.bound
  slot _ _ := ht.pos_of_slot
  task _ := ht.pos_of_task

/-! ## While no operation is under way -/

/-- Slots, tracker and handles say the same: each slot is `reserved`, is ready and tracked as idle
or checked out and tracked as in use, and each handle has its slot. -/
structure Traffic.Settled (t : Traffic σ ι ω) : Prop where
  distinct : t.world.cache.keys.Nodup
  occupied : t.world.cache.occupied = (t.world.cache.keys.length : Nat)
  tracked : (t.world.cache.usage.entries.map (·.key)).Perm t.world.cache.keys
  kinds : ∀ key slot, t.world.cache.slot? key = some slot →
    slot.stage = .ready ∧ (∃ state, slot.payload = some state) ∨
      slot.stage = .inUse ∧ slot.payload = none
  inUse : ∀ key slot, t.world.cache.slot? key = some slot →
    (t.world.cache.usage.isInUse key = true ↔ slot.stage = .inUse)
  pending : ∀ key slot, t.world.cache.slot? key = some slot → slot.removePending = true →
    slot.stage = .inUse
  /-- The number of handles on `key` is one if its slot is `.inUse`, else none. -/
  handles : ∀ key, t.handles.countP (·.1 = key) =
    if (t.world.cache.slot? key).any (·.stage = .inUse) then 1 else 0

theorem Usage.mem_keys_iff {u : Usage} {key : Key} :
    key ∈ u.entries.map (·.key) ↔ u.find? key ≠ none := by
  rw [List.mem_map, Usage.find?, ne_eq, List.find?_eq_none]
  simp

/-- Where each slot is `reserved`, `reservedCount` is the number of slots. -/
theorem Cache.reservedCount_eq {c : Cache σ} (hc : c.Distinct)
    (h : ∀ key slot, c.slot? key = some slot → slot.reserved = true) :
    c.reservedCount = c.keys.length := by
  unfold reservedCount keys
  rw [List.length_map, List.countP_eq_length]
  intro e he
  exact h e.1 e.2 (slot?_of_mem hc he)

section Idle

variable {t : Traffic σ ι ω}

/-- Where no task is under way, a slot is ready, tracked as idle and in nobody's hands, or checked
out, tracked as in use and in the hands of one caller. -/
theorem Sound.resident (ht : Sound s t.scene) (hidle : t.Idle) {key : Key} {slot : Slot σ}
    (h : t.world.cache.slot? key = some slot) :
    (∃ state, slot.IsReady state ∧
        (∃ since, t.world.cache.usage.find? key = some ⟨key, false, since⟩) ∧
        t.handles.countP (·.1 = key) = 0) ∨
      slot.IsOut ∧ (∃ e, t.world.cache.usage.find? key = some e ∧ e.inUse = true) ∧
        t.handles.countP (·.1 = key) = 1 := by
  obtain ⟨state, hr⟩ | ho | hp := ht.kinds h
  · obtain ⟨⟨since, hu, -⟩, hm, -⟩ := ht.at_ready h hr
    exact .inl ⟨state, hr, ⟨since, hu⟩, hm⟩
  · obtain ⟨hu, hm, -⟩ := ht.at_out h ho
    exact .inr ⟨ho, hu, hm⟩
  · obtain ⟨-, hn⟩ := ht.placeholder_of_held h hp.held
    have hcomers : t.scene.comers key = 0 := by
      unfold Scene.comers
      rw [show t.scene.tasks = 0 from hidle, Multiset.countP_zero]
    omega

theorem Sound.tracked_iff (ht : Sound s t.scene) (hidle : t.Idle) (key : Key) :
    t.world.cache.usage.find? key ≠ none ↔ ∃ slot, t.world.cache.slot? key = some slot := by
  constructor
  · intro hu
    by_contra hnone
    have hslot : t.world.cache.slot? key = none := Option.eq_none_iff_forall_ne_some.mpr fun slot h =>
      hnone ⟨slot, h⟩
    exact hu (ht.at_none hslot).1
  · rintro ⟨slot, hslot⟩ hnone
    obtain ⟨state, -, ⟨since, hu⟩, -⟩ | ⟨-, ⟨e, hu, -⟩, -⟩ := ht.resident hidle hslot
    · exact nomatch hnone.symm.trans hu
    · exact nomatch hnone.symm.trans hu

/-- Where no task is under way, `occupied` is the number of slots. -/
theorem Sound.occupied_of_idle (ht : Sound s t.scene) (hidle : t.Idle) :
    t.world.cache.occupied = (t.world.cache.keys.length : Nat) := by
  have hreserved : ∀ key slot, t.world.cache.slot? key = some slot → slot.reserved = true := by
    intro key slot hslot
    obtain ⟨state, hr, -⟩ | ⟨ho, -⟩ := ht.resident hidle hslot
    · exact hr.reserved
    · exact ho.reserved
  have hunits : t.tasks.countP (·.hasUnit) = 0 := by
    rw [show t.tasks = 0 from hidle, Multiset.countP_zero]
  have hcount : t.world.cache.reservedCount = t.world.cache.keys.length :=
    Cache.reservedCount_eq ht.distinct hreserved
  have hocc := ht.balanced.units
  omega

theorem Sound.settled (ht : Sound s t.scene) (hidle : t.Idle) : t.Settled where
  distinct := ht.distinct
  occupied := ht.occupied_of_idle hidle
  tracked := by
    refine (List.perm_ext_iff_of_nodup ht.tracked ht.distinct).mpr fun key => ?_
    exact Usage.mem_keys_iff.trans ((ht.tracked_iff hidle key).trans Cache.mem_keys_iff.symm)
  kinds key slot hslot := by
    obtain ⟨state, hr, -⟩ | ⟨ho, -⟩ := ht.resident hidle hslot
    · exact .inl ⟨hr.stage, state, hr.payload⟩
    · exact .inr ⟨ho.stage, ho.payload⟩
  inUse key slot hslot := by
    unfold Usage.isInUse
    obtain ⟨state, hr, ⟨since, hu⟩, -⟩ | ⟨ho, ⟨e, hu, huse⟩, -⟩ := ht.resident hidle hslot
    · rw [hu, hr.stage, Option.any_some]
      exact ⟨nofun, nofun⟩
    · rw [hu, ho.stage, Option.any_some]
      exact ⟨fun _ => rfl, fun _ => huse⟩
  pending key slot hslot hp := by
    obtain ⟨state, hr, -⟩ | ⟨ho, -⟩ := ht.resident hidle hslot
    · exact nomatch hr.removePending.symm.trans hp
    · exact ho.stage
  handles key := by
    cases hslot : t.world.cache.slot? key with
    | none => exact (ht.at_none hslot).2.1
    | some slot =>
      obtain ⟨state, hr, -, hm⟩ | ⟨ho, -, hm⟩ := ht.resident hidle hslot
      · rw [hm, Option.any_some, hr.stage]; rfl
      · rw [hm, Option.any_some, ho.stage]; rfl

end Idle

/-! ## Runs -/

end SessionCache
