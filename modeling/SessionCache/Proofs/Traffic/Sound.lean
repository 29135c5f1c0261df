import SessionCache.Proofs.Traffic.Scene

/-!
# The invariant of the memory of a cache

Slots, tracked keys, handles and the operations under way fit together: each key has none of them
or is in one of three kinds of places (`Stands`), and every unit of room that was given out is held
by a slot or by an operation under way (`Sound.room`). `Shift.sound`: every shift keeps this. Callbacks may
fail in it, calls of the backend may fail, and there may be any bytes in the store.
-/

namespace SessionCache

variable {σ ι ω : Type}

/-- How `key` may stand: its slot, what the tracker has of it, the number of `handles` on it, and
the number of tasks that await it. -/
inductive Stands (key : Key) : Option (Slot σ) → Option UsageEntry → Nat → Nat → Prop where
  | absent : Stands key none none 0 0
  | ready {slot : Slot σ} {state : σ} {since : Instant} (h : slot.IsReady state)
      (hl : slot.lastAccess ≤ since) : Stands key (some slot) (some ⟨key, false, since⟩) 0 0
  | out {slot : Slot σ} {e : UsageEntry} (h : slot.IsOut) (he : e.inUse = true) :
      Stands key (some slot) (some e) 1 0
  | coming {slot : Slot σ} (h : slot.IsPlaceholder) : Stands key (some slot) none 0 1

namespace Scene

/-- The number of `handles` on `key`. -/
def hands (x : Scene σ ι ω) (key : Key) : Nat := x.handles.countP (·.1 = key)

/-- The number of tasks that await `key`, `.fetching` or `.settling`. -/
def comers (x : Scene σ ι ω) (key : Key) : Nat := x.tasks.countP (·.awaits key)

/-- The number of tasks with a unit of room, `.introducing` or `.settling`. -/
def units (x : Scene σ ι ω) : Nat := x.tasks.countP (·.hasUnit)

end Scene

/-- The invariant of the traffic: each key has one slot and one entry in the tracker at most, and
`Stands`; the units of room add up; and only `known` keys have slots. -/
structure Sound (s : Surroundings σ ι ω) (x : Scene σ ι ω) : Prop where
  distinct : x.cache.Distinct
  tracked : x.cache.usage.Distinct
  stands : ∀ key, Stands key (x.cache.slot? key) (x.cache.usage.find? key) (x.hands key) (x.comers key)
  /-- `Cache.spare`, the units of room that no slot holds, are those of the tasks. -/
  room : x.cache.spare = x.units
  bound : x.cache.occupied ≤ s.settings.maxSize
  familiar : ∀ key, x.cache.slot? key ≠ none → key ∈ x.known

variable {s : Surroundings σ ι ω} {x x' : Scene σ ι ω} {ds : List (Deed σ)} {key : Key}
  {slot : Slot σ} {state : σ}

/-! ## Reading the invariant at a key -/

namespace Stands

variable {entry : Option UsageEntry} {slot? : Option (Slot σ)} {m n : Nat}

theorem of_ready (h : Stands key (some slot) entry m n) (hr : slot.IsReady state) :
    (∃ since, entry = some ⟨key, false, since⟩ ∧ slot.lastAccess ≤ since) ∧ m = 0 ∧ n = 0 := by
  cases h with
  | ready _ hl => exact ⟨⟨_, rfl, hl⟩, rfl, rfl⟩
  | out h => exact nomatch h.stage.symm.trans hr.stage
  | coming h => exact nomatch h.stage.symm.trans hr.stage

theorem of_out (h : Stands key (some slot) entry m n) (ho : slot.IsOut) :
    (∃ e, entry = some e ∧ e.inUse = true) ∧ m = 1 ∧ n = 0 := by
  cases h with
  | ready h _ => exact nomatch h.stage.symm.trans ho.stage
  | out _ he => exact ⟨⟨_, rfl, he⟩, rfl, rfl⟩
  | coming h => exact nomatch h.stage.symm.trans ho.stage

theorem of_none (h : Stands key (none : Option (Slot σ)) entry m n) :
    entry = none ∧ m = 0 ∧ n = 0 := by
  cases h; exact ⟨rfl, rfl, rfl⟩

theorem of_comer (h : Stands key slot? entry m n) (hn : n ≠ 0) :
    ∃ slot, slot? = some slot ∧ slot.IsPlaceholder ∧ entry = none ∧ m = 0 ∧ n = 1 := by
  cases h with
  | absent | ready | out => exact absurd rfl hn
  | coming h => exact ⟨_, rfl, h, rfl, rfl, rfl⟩

theorem of_hand (h : Stands key slot? entry m n) (hm : m ≠ 0) :
    ∃ slot, slot? = some slot ∧ slot.IsOut ∧ m = 1 ∧ n = 0 := by
  cases h with
  | absent | ready | coming => exact absurd rfl hm
  | out h => exact ⟨_, rfl, h, rfl, rfl⟩

theorem ready_of_stage (h : Stands key (some slot) entry m n) (hs : slot.stage = .ready) :
    ∃ state, slot.IsReady state := by
  cases h with
  | ready h _ => exact ⟨_, h⟩
  | out h => exact nomatch h.stage.symm.trans hs
  | coming h => exact nomatch h.stage.symm.trans hs

theorem out_of_stage (h : Stands key (some slot) entry m n) (hs : slot.stage = .inUse) :
    slot.IsOut := by
  cases h with
  | ready h _ => exact nomatch h.stage.symm.trans hs
  | out h => exact h
  | coming h => exact nomatch h.stage.symm.trans hs

theorem kinds (h : Stands key (some slot) entry m n) :
    (∃ state, slot.IsReady state) ∨ slot.IsOut ∨ slot.IsPlaceholder := by
  cases h with
  | ready h _ => exact .inl ⟨_, h⟩
  | out h => exact .inr (.inl h)
  | coming h => exact .inr (.inr h)

theorem placeholder_of_held (h : Stands key (some slot) entry m n) (hs : slot.held = true) :
    slot.IsPlaceholder ∧ n = 1 := by
  cases h with
  | ready h _ => exact nomatch h.held.symm.trans hs
  | out h => exact nomatch h.held.symm.trans hs
  | coming h => exact ⟨h, rfl⟩

end Stands

namespace Sound

theorem at_ready (hx : Sound s x) (h : x.cache.slot? key = some slot) (hr : slot.IsReady state) :
    (∃ since, x.cache.usage.find? key = some ⟨key, false, since⟩ ∧ slot.lastAccess ≤ since) ∧
      x.hands key = 0 ∧ x.comers key = 0 :=
  (h ▸ hx.stands key : Stands key (some slot) _ _ _).of_ready hr

theorem at_out (hx : Sound s x) (h : x.cache.slot? key = some slot) (ho : slot.IsOut) :
    (∃ e, x.cache.usage.find? key = some e ∧ e.inUse = true) ∧ x.hands key = 1 ∧ x.comers key = 0 :=
  (h ▸ hx.stands key : Stands key (some slot) _ _ _).of_out ho

theorem at_none (hx : Sound s x) (h : x.cache.slot? key = none) :
    x.cache.usage.find? key = none ∧ x.hands key = 0 ∧ x.comers key = 0 :=
  (h ▸ hx.stands key : Stands key (none : Option (Slot σ)) _ _ _).of_none

theorem ready_of_stage (hx : Sound s x) (h : x.cache.slot? key = some slot)
    (hs : slot.stage = .ready) : ∃ state, slot.IsReady state :=
  (h ▸ hx.stands key : Stands key (some slot) _ _ _).ready_of_stage hs

theorem out_of_stage (hx : Sound s x) (h : x.cache.slot? key = some slot)
    (hs : slot.stage = .inUse) : slot.IsOut :=
  (h ▸ hx.stands key : Stands key (some slot) _ _ _).out_of_stage hs

/-- Each slot is ready, checked out, or a placeholder. -/
theorem kinds (hx : Sound s x) (h : x.cache.slot? key = some slot) :
    (∃ state, slot.IsReady state) ∨ slot.IsOut ∨ slot.IsPlaceholder :=
  (h ▸ hx.stands key : Stands key (some slot) _ _ _).kinds

/-- Each key with a slot is `known`. -/
theorem known (hx : Sound s x) (h : x.cache.slot? key = some slot) : key ∈ x.known :=
  hx.familiar key (h.trans_ne (Option.some_ne_none _))

theorem placeholder_of_held (hx : Sound s x) (h : x.cache.slot? key = some slot)
    (hs : slot.held = true) : slot.IsPlaceholder ∧ x.comers key = 1 :=
  (h ▸ hx.stands key : Stands key (some slot) _ _ _).placeholder_of_held hs

end Sound

/-! ## Tasks and handles, one taken out -/

@[simp] theorem Task.awaits_after (task : Task ι) (found : Look) (key : Key) :
    (task.after found).awaits key = task.awaits key := by
  cases task <;> cases found <;> rfl

theorem Task.hasUnit_after {task : Task ι} {deadline : Deadline} (h : task.deadline? = some deadline) :
    task.hasUnit = false ∧ (task.after .taken).hasUnit = true := by
  cases task <;> first | exact ⟨rfl, rfl⟩ | exact nomatch h

namespace Scene

theorem hands_of_cons {rest : Multiset (Key × σ)} (h : x.handles = (key, state) ::ₘ rest)
    (other : Key) : x.hands other = rest.countP (·.1 = other) + if key = other then 1 else 0 := by
  rw [hands, h, Multiset.countP_cons]

theorem comers_of_cons {task : Task ι} {rest : Multiset (Task ι)} (h : x.tasks = task ::ₘ rest)
    (other : Key) :
    x.comers other = rest.countP (·.awaits other) + if task.awaits other then 1 else 0 := by
  rw [comers, h, Multiset.countP_cons]

theorem units_of_cons {task : Task ι} {rest : Multiset (Task ι)} (h : x.tasks = task ::ₘ rest) :
    x.units = rest.countP (·.hasUnit) + if task.hasUnit then 1 else 0 := by
  rw [units, h, Multiset.countP_cons]

end Scene

theorem Task.awaits_iff {task : Task ι} (h : task.awaits key = true) (other : Key) :
    task.awaits other = true ↔ other = key := by
  cases task with
  | creating | introducing => exact nomatch h
  | fetching | settling =>
    have hk := of_decide_eq_true h
    exact decide_eq_true_iff.trans ⟨fun ho => ho.symm.trans hk, fun ho => hk.trans ho.symm⟩

namespace Sound

/-- A task that awaits `key` is the only one; the slot of `key` is a placeholder, the tracker has no
entry, and nobody has `key` in hand. -/
theorem at_task (hx : Sound s x) {task : Task ι} {rest : Multiset (Task ι)}
    (h : x.tasks = task ::ₘ rest) (ha : task.awaits key = true) :
    ∃ slot, x.cache.slot? key = some slot ∧ slot.IsPlaceholder ∧ x.cache.usage.find? key = none ∧
      x.hands key = 0 ∧ rest.countP (·.awaits key) = 0 ∧
      ∀ other, other ≠ key → rest.countP (·.awaits other) = x.comers other := by
  have hn := Scene.comers_of_cons h key
  rw [if_pos ha] at hn
  obtain ⟨slot, hslot, hp, hu, hm, hone⟩ :=
    (hx.stands key).of_comer (by rw [hn]; exact Nat.succ_ne_zero _)
  refine ⟨slot, hslot, hp, hu, hm, by omega, fun other ho => ?_⟩
  rw [Scene.comers_of_cons h, if_neg fun hk => ho ((Task.awaits_iff ha other).mp hk), Nat.add_zero]

/-- A handle on `key` is the only one; the slot is checked out, the tracker has `key` in use, and no
task awaits it. -/
theorem at_handle (hx : Sound s x) {rest : Multiset (Key × σ)}
    (h : x.handles = (key, state) ::ₘ rest) :
    ∃ slot, x.cache.slot? key = some slot ∧ slot.IsOut ∧
      (∃ e, x.cache.usage.find? key = some e ∧ e.inUse = true) ∧ x.comers key = 0 ∧
      rest.countP (·.1 = key) = 0 ∧
      ∀ other, other ≠ key → rest.countP (·.1 = other) = x.hands other := by
  have hm := Scene.hands_of_cons h key
  rw [if_pos rfl] at hm
  obtain ⟨slot, hslot, ho, hone, hn⟩ :=
    (hx.stands key).of_hand (by rw [hm]; exact Nat.succ_ne_zero _)
  refine ⟨slot, hslot, ho, (hx.at_out hslot ho).1, hn, by omega, fun other hother => ?_⟩
  rw [Scene.hands_of_cons h, if_neg (Ne.symm hother), Nat.add_zero]

/-- The slot of a `key` in somebody's hands is checked out. -/
theorem out_of_mem (hx : Sound s x) (h : (key, state) ∈ x.handles) :
    ∃ slot, x.cache.slot? key = some slot ∧ slot.IsOut := by
  obtain ⟨rest, hrest⟩ := Multiset.exists_cons_of_mem h
  obtain ⟨slot, hslot, ho, -⟩ := hx.at_handle hrest
  exact ⟨slot, hslot, ho⟩

end Sound

/-! ## Keeping the invariant -/

namespace Sound

/-- `Sound` stays where the slots and the tracker say the same of each key, and `spare` is `units`
again. -/
theorem still (hx : Sound s x) (hd : x'.cache.Distinct)
    (hslot : ∀ key, x'.cache.slot? key = x.cache.slot? key) (hu : x'.cache.usage = x.cache.usage)
    (hh : ∀ key, x'.hands key = x.hands key) (hc : ∀ key, x'.comers key = x.comers key)
    (hr : x'.cache.spare = x'.units) (hb : x'.cache.occupied ≤ s.settings.maxSize)
    (hk : x.known ⊆ x'.known) : Sound s x' where
  distinct := hd
  tracked := hu ▸ hx.tracked
  stands key := by rw [hslot, hu, hh, hc]; exact hx.stands key
  room := hr
  bound := hb
  familiar key h := hk (hx.familiar key (hslot key ▸ h))

/-- `Sound` stays where only `key` changes, and `Stands` as it is allowed to. -/
theorem change (hx : Sound s x) (key : Key) (hd : x'.cache.Distinct)
    (ht : x'.cache.usage.Distinct)
    (hother : ∀ other, other ≠ key → x'.cache.slot? other = x.cache.slot? other ∧
      x'.cache.usage.find? other = x.cache.usage.find? other ∧ x'.hands other = x.hands other ∧
      x'.comers other = x.comers other)
    (hkey : Stands key (x'.cache.slot? key) (x'.cache.usage.find? key) (x'.hands key)
      (x'.comers key))
    (hr : x'.cache.spare = x'.units) (hb : x'.cache.occupied ≤ s.settings.maxSize)
    (hk : x.known ⊆ x'.known) (hkk : key ∈ x'.known) : Sound s x' where
  distinct := hd
  tracked := ht
  stands other := by
    by_cases ho : other = key
    · exact ho ▸ hkey
    · obtain ⟨h₁, h₂, h₃, h₄⟩ := hother other ho
      rw [h₁, h₂, h₃, h₄]
      exact hx.stands other
  room := hr
  bound := hb
  familiar other h := by
    by_cases ho : other = key
    · exact ho ▸ hkk
    · exact hk (hx.familiar other ((hother other ho).1 ▸ h))

/-- `Sound` stays where `key` loses its slot and its entry in the tracker, and nobody has it in hand
or awaits it. -/
theorem depart (hx : Sound s x) (hs : x.cache.slot? key = some slot) (hd : x'.cache.Distinct)
    (hslot : ∀ other, x'.cache.slot? other = if other = key then none else x.cache.slot? other)
    (hu : x'.cache.usage = x.cache.usage.forget key)
    (hh : ∀ other, other ≠ key → x'.hands other = x.hands other) (hm : x'.hands key = 0)
    (hc : ∀ other, other ≠ key → x'.comers other = x.comers other) (hn : x'.comers key = 0)
    (hr : x'.cache.spare = x'.units) (hb : x'.cache.occupied ≤ x.cache.occupied)
    (hk : x.known = x'.known) : Sound s x' := by
  refine hx.change key hd (hu ▸ hx.tracked.forget key) (fun other ho => ?_) ?_ hr
    (Int.le_trans hb hx.bound) hk.subset (hk ▸ hx.known hs)
  · exact ⟨by simp [hslot, ho], by simp [hu, ho], hh other ho, hc other ho⟩
  · simpa [hslot, hu, hm, hn] using Stands.absent

/-- `Sound` only depends on slots, tracker, `occupied`, and what callers have in hand. -/
theorem same (hx : Sound s x) (hslots : x'.cache.slots = x.cache.slots)
    (hu : x'.cache.usage = x.cache.usage) (ho : x'.cache.occupied = x.cache.occupied)
    (hd : x'.toDesk = x.toDesk) : Sound s x' := by
  obtain ⟨⟨tasks, handles, known⟩, ⟨slots, usage, occupied, _⟩, _, _, _, _⟩ := x
  obtain ⟨⟨_, _, _⟩, ⟨_, _, _, _⟩, _, _, _, _⟩ := x'
  cases hslots; cases hu; cases ho; cases hd
  exact ⟨hx.distinct, hx.tracked, hx.stands, hx.room, hx.bound, hx.familiar⟩

theorem occupied_unlink_le (h : x.cache.slot? key = some slot) :
    (x.cache.unlink key).occupied ≤ x.cache.occupied := by
  rw [Cache.occupied_unlink h]
  split <;> omega

theorem unlink_ready (hx : Sound s x) (h : x.cache.slot? key = some slot) (hr : slot.IsReady state) :
    Sound s { x with cache := x.cache.unlink key } := by
  obtain ⟨-, hm, hn⟩ := hx.at_ready h hr
  exact hx.depart h (hx.distinct.unlink key) (by simp) rfl
    (fun _ _ => rfl) hm (fun _ _ => rfl) hn ((Cache.spare_unlink hx.distinct key).trans hx.room)
    (occupied_unlink_le h) rfl

theorem unlink_out (hx : Sound s x) {rest : Multiset (Key × σ)}
    (hh : x.handles = (key, state) ::ₘ rest) :
    Sound s { x with cache := x.cache.unlink key, handles := rest } := by
  obtain ⟨slot, h, -, -, hn, hm, hother⟩ := hx.at_handle hh
  exact hx.depart h (hx.distinct.unlink key) (by simp) rfl
    hother hm (fun _ _ => rfl) hn ((Cache.spare_unlink hx.distinct key).trans hx.room)
    (occupied_unlink_le h) rfl

theorem abandon (hx : Sound s x) {deadline : Deadline} {rest : Multiset (Task ι)}
    (ht : x.tasks = .fetching key deadline ::ₘ rest) :
    Sound s { x with cache := x.cache.unlink key, tasks := rest } := by
  obtain ⟨slot, h, -, -, hm, hn, hother⟩ := hx.at_task ht (decide_eq_true rfl)
  have hunits : x.units = rest.countP (·.hasUnit) := Scene.units_of_cons ht
  refine hx.depart h (hx.distinct.unlink key) (by simp) rfl
    (fun _ _ => rfl) hm hother hn ?_ (occupied_unlink_le h) rfl
  rw [Cache.spare_unlink hx.distinct, hx.room, hunits]
  rfl

theorem retreat (hx : Sound s x) {rest : Multiset (Task ι)}
    (ht : x.tasks = .settling key ::ₘ rest) :
    Sound s { x with cache := x.cache.retract key, tasks := rest } := by
  obtain ⟨slot, h, hp, -, hm, hn, hother⟩ := hx.at_task ht (decide_eq_true rfl)
  have hunits : x.units = rest.countP (·.hasUnit) + 1 := Scene.units_of_cons ht
  refine hx.depart h (hx.distinct.retract key) (by simp) rfl
    (fun _ _ => rfl) hm hother hn ?_ ?_ rfl
  · change (x.cache.retract key).spare = (rest.countP (·.hasUnit) : Nat)
    rw [Cache.spare_retract hx.distinct h hp.reserved, hx.room, hunits]
    omega
  · rw [Cache.occupied_retract h]
    omega

/-- `Sound` stays where `f` changes the slot of `key` and keeps `reserved`, and `Stands` as it is
allowed to. -/
theorem turn (hx : Sound s x) (h : x.cache.slot? key = some slot) (f : Slot σ → Slot σ)
    (hr : (f slot).reserved = slot.reserved)
    (hslots : x'.cache.slots = (x.cache.update key f).slots)
    (ho : x'.cache.occupied = x.cache.occupied) (ht : x'.cache.usage.Distinct)
    (hu : ∀ other, other ≠ key → x'.cache.usage.find? other = x.cache.usage.find? other)
    (hh : ∀ other, other ≠ key → x'.hands other = x.hands other) (hc : x'.tasks = x.tasks)
    (hk : x'.known = x.known) {e : Option UsageEntry} {m n : Nat}
    (he : x'.cache.usage.find? key = e) (hm : x'.hands key = m) (hn : x.comers key = n)
    (hkey : Stands key (some (f slot)) e m n) : Sound s x' := by
  have hslot : ∀ other, x'.cache.slot? other = (x.cache.update key f).slot? other := fun other => by
    rw [Cache.slot?, hslots]
    rfl
  have hcomers : ∀ other, x'.comers other = x.comers other := fun other => by
    rw [Scene.comers, hc]
    rfl
  have hspare : x'.cache.spare = (x.cache.update key f).spare := by
    rw [Cache.spare, Cache.spare, Cache.reservedCount, Cache.reservedCount, hslots, ho]
    rfl
  refine hx.change key ?_ ht (fun other hne => ⟨?_, hu other hne, hh other hne, hcomers other⟩) ?_
    ?_ (ho ▸ hx.bound) hk.symm.subset
    (hk ▸ hx.known h)
  · rw [Cache.Distinct, Cache.keys, hslots]
    exact hx.distinct.update key f
  · simp [hslot, hne]
  · simpa [hslot, h, hcomers, he, hm, hn] using hkey
  · rw [hspare, Cache.spare_update hx.distinct h hr, hx.room, Scene.units, Scene.units, hc]

theorem checkOut (hx : Sound s x) (h : x.cache.slot? key = some slot) (hr : slot.IsReady state)
    (time now : Instant) (state' : σ) :
    Sound s
      { x with
        cache := (x.cache.update key (·.toOut time)).markInUse now key
        handles := (key, state') ::ₘ x.handles } := by
  obtain ⟨⟨since, hu, -⟩, hm, hn⟩ := hx.at_ready h hr
  have hfind : ∀ other, (x.cache.usage.markInUse now key).find? other = _ :=
    Usage.find?_markInUse hu now
  have hhands := Scene.hands_of_cons (x := { x with handles := (key, state') ::ₘ x.handles }) rfl
  refine hx.turn h (·.toOut time) rfl rfl rfl (hx.tracked.markInUse now key)
    (fun other ho => (hfind other).trans (if_neg ho)) (fun other ho => ?_) rfl rfl
    ((hfind key).trans (if_pos rfl)) ?_ hn (.out (hr.toOut time) rfl)
  · exact (hhands other).trans (by rw [if_neg (Ne.symm ho)]; rfl)
  · exact (hhands key).trans (by rw [if_pos rfl]; exact congrArg (· + 1) hm)

theorem stay (hx : Sound s x) (h : x.cache.slot? key = some slot) (hr : slot.IsReady state)
    (state' : σ) :
    Sound s { x with cache := x.cache.update key (·.toKept state') } := by
  obtain ⟨⟨since, hu, hl⟩, hm, hn⟩ := hx.at_ready h hr
  exact hx.turn h (·.toKept state') rfl rfl rfl hx.tracked (fun _ _ => rfl) (fun _ _ => rfl) rfl rfl
    hu hm hn (.ready (hr.toKept state') hl)

theorem defer (hx : Sound s x) (h : x.cache.slot? key = some slot) (ho : slot.IsOut) :
    Sound s { x with cache := x.cache.update key (·.toPending) } := by
  obtain ⟨⟨e, hu, he⟩, hm, hn⟩ := hx.at_out h ho
  exact hx.turn h (·.toPending) rfl rfl rfl hx.tracked (fun _ _ => rfl) (fun _ _ => rfl) rfl rfl
    hu hm hn (.out ho.toPending he)

theorem giveIn (hx : Sound s x) {rest : Multiset (Key × σ)} (hh : x.handles = (key, state) ::ₘ rest)
    (h : x.cache.slot? key = some slot) (hp : slot.removePending = false) {time now : Instant}
    (hl : time ≤ now) (state' : σ) :
    Sound s
      { x with
        cache := (x.cache.update key (·.toReady time state')).markIdle now key
        handles := rest } := by
  obtain ⟨slot', h', ho, -, hn, hm, hother⟩ := hx.at_handle hh
  obtain rfl : slot = slot' := Option.some.inj (h.symm.trans h')
  exact hx.turn h (·.toReady time state') rfl rfl rfl (hx.tracked.markIdle now key)
    (fun other ho => by simp [ho]) hother rfl rfl (by simp) hm hn
    (.ready (ho.toReady hp time state') hl)

theorem settle (hx : Sound s x) {rest : Multiset (Task ι)} (ht : x.tasks = .settling key ::ₘ rest)
    {time now : Instant} (hl : time ≤ now) (state : σ) :
    Sound s
      { x with
        cache := (x.cache.update key (·.toSettled time state)).markIdle now key
        tasks := rest } := by
  obtain ⟨slot, h, hp, -, hm, hn, hother⟩ := hx.at_task ht (decide_eq_true rfl)
  have hunits : x.units = rest.countP (·.hasUnit) + 1 := Scene.units_of_cons ht
  have hkey : (x.cache.update key (·.toSettled time state)).slot? key =
      some (slot.toSettled time state) := by simp [h]
  refine hx.change key (hx.distinct.update key (·.toSettled time state)) (hx.tracked.markIdle now key)
    (fun other ho => ⟨?_, ?_, rfl, hother other ho⟩) ?_ ?_ hx.bound (subset_refl _)
    (hx.known h)
  · simp [ho]
  · simp [ho]
  · refine (?_ : Stands key ((x.cache.update key (·.toSettled time state)).slot? key)
      ((x.cache.usage.markIdle now key).find? key) (x.hands key) (rest.countP (·.awaits key)))
    simpa [hkey, hm, hn] using Stands.ready (hp.toSettled time state) hl
  · have hspare := Cache.spare_update_reserve hx.distinct h hp.reserved
      (f := (·.toSettled time state)) rfl
    change (x.cache.update key (·.toSettled time state)).spare = (rest.countP (·.hasUnit) : Nat)
    rw [hspare, hx.room, hunits]
    omega

theorem enter (hx : Sound s x) {args : ι} {rest : Multiset (Task ι)}
    (ht : x.tasks = .introducing args ::ₘ rest) (hk : key ∉ x.known) (hr : slot.IsReady state)
    {now : Instant} (hl : slot.lastAccess ≤ now) :
    Sound s
      { x with
        cache := (x.cache.link key slot).markIdle now key
        tasks := rest
        known := insert key x.known } := by
  have hnone : x.cache.slot? key = none := by
    by_contra h
    exact hk (hx.familiar key h)
  obtain ⟨-, hm, hn⟩ := hx.at_none hnone
  have hcomers : ∀ other, rest.countP (·.awaits other) = x.comers other := fun other =>
    (Scene.comers_of_cons ht other).symm
  have hunits : x.units = rest.countP (·.hasUnit) + 1 := Scene.units_of_cons ht
  refine hx.change key (hx.distinct.link key slot) (hx.tracked.markIdle now key)
    (fun other ho => ⟨?_, ?_, rfl, hcomers other⟩) ?_ ?_ hx.bound (Set.subset_insert _ _)
    (Set.mem_insert _ _)
  · simp [ho]
  · simp [ho]
  · refine (?_ : Stands key ((x.cache.link key slot).slot? key)
      ((x.cache.usage.markIdle now key).find? key) (x.hands key)
      (rest.countP (·.awaits key)))
    simpa [hm, hcomers, hn] using Stands.ready hr hl
  · change (x.cache.link key slot).spare = (rest.countP (·.hasUnit) : Nat)
    rw [Cache.spare_link hnone, hr.reserved, if_pos rfl, hx.room, hunits]
    omega

theorem announce (hx : Sound s x) (h : x.cache.slot? key = none) (hp : slot.IsPlaceholder)
    (deadline : Deadline) :
    Sound s
      { x with
        cache := x.cache.link key slot
        tasks := .fetching key deadline ::ₘ x.tasks
        known := insert key x.known } := by
  obtain ⟨hu, hm, hn⟩ := hx.at_none h
  have hcomers := Scene.comers_of_cons
    (x := { x with tasks := Task.fetching key deadline ::ₘ x.tasks }) rfl
  refine hx.change key (hx.distinct.link key slot) hx.tracked
    (fun other ho => ⟨?_, rfl, rfl, ?_⟩) ?_ ?_ hx.bound (Set.subset_insert _ _) (Set.mem_insert _ _)
  · simp [ho]
  · refine (hcomers other).trans ?_
    rw [if_neg fun hk => ho (of_decide_eq_true hk).symm]
    rfl
  · have hself : (Task.fetching key deadline : Task ι).awaits key = true := decide_eq_true rfl
    have hone := hcomers key
    rw [if_pos hself, show x.tasks.countP (·.awaits key) = 0 from hn] at hone
    refine (?_ : Stands key ((x.cache.link key slot).slot? key) (x.cache.usage.find? key) (x.hands key)
      (Scene.comers { x with tasks := Task.fetching key deadline ::ₘ x.tasks } key))
    simpa [hone, hu, hm] using Stands.coming hp
  · have hunits := Scene.units_of_cons
      (x := { x with tasks := Task.fetching key deadline ::ₘ x.tasks }) rfl
    refine (Cache.spare_link h).trans ?_
    rw [hp.reserved, hx.room]
    exact (Int.sub_zero _).trans (congrArg _ hunits.symm)

theorem take (hx : Sound s x) {task : Task ι} {rest : Multiset (Task ι)} {deadline : Deadline}
    (h : x.tasks = task ::ₘ rest) (hd : task.deadline? = some deadline)
    (hc : x.cache.occupied < s.settings.maxSize) :
    Sound s
      { x with
        cache := { x.cache with occupied := x.cache.occupied + 1 }
        tasks := task.after .taken ::ₘ rest } := by
  obtain ⟨hbefore, hafter⟩ := Task.hasUnit_after hd
  have hunits := Scene.units_of_cons h
  have hunits' := Scene.units_of_cons
    (x := { x with tasks := task.after .taken ::ₘ rest }) rfl
  rw [if_pos hafter] at hunits'
  rw [hbefore, if_neg Bool.false_ne_true] at hunits
  have hcomers := Scene.comers_of_cons
    (x := { x with tasks := task.after .taken ::ₘ rest }) rfl
  refine hx.still hx.distinct (fun _ => rfl) rfl (fun _ => rfl) (fun key => ?_) ?_ hc
    (subset_refl _)
  · rw [Scene.comers_of_cons h, ← Task.awaits_after task .taken]
    exact hcomers key
  · have hroom := hx.room
    simp only [Cache.spare, Cache.reservedCount] at hroom ⊢
    change _ = ((Scene.units { x with tasks := task.after .taken ::ₘ rest } : Nat) : Int)
    rw [hunits']
    omega

theorem unmade (hx : Sound s x) {args : ι} {rest : Multiset (Task ι)}
    (h : x.tasks = .introducing args ::ₘ rest) (key : Key) :
    Sound s
      { x with
        cache := { x.cache with occupied := x.cache.occupied - 1 }
        tasks := rest
        known := insert key x.known } := by
  have hunits : x.units = rest.countP (·.hasUnit) + 1 := Scene.units_of_cons h
  refine hx.still hx.distinct (fun _ => rfl) rfl (fun _ => rfl)
    (fun key => (Scene.comers_of_cons h key).symm) ?_ ?_ (Set.subset_insert _ _)
  · have hroom := hx.room
    simp only [Cache.spare, Cache.reservedCount, Scene.units] at hroom hunits ⊢
    omega
  · have hbound := hx.bound
    change x.cache.occupied - 1 ≤ _
    omega

theorem quit (hx : Sound s x) {args : ι} {deadline : Deadline} {rest : Multiset (Task ι)}
    (h : x.tasks = .creating args deadline ::ₘ rest) : Sound s { x with tasks := rest } := by
  refine hx.still hx.distinct (fun _ => rfl) rfl (fun _ => rfl)
    (fun key => (Scene.comers_of_cons h key).symm) ?_ hx.bound (subset_refl _)
  exact hx.room.trans (congrArg _ (Scene.units_of_cons h))

theorem ask (hx : Sound s x) (args : ι) (deadline : Deadline) :
    Sound s { x with tasks := .creating args deadline ::ₘ x.tasks } :=
  hx.still hx.distinct (fun _ => rfl) rfl (fun _ => rfl)
    (Scene.comers_of_cons (x := { x with tasks := Task.creating args deadline ::ₘ x.tasks }) rfl)
    (hx.room.trans (congrArg _ (Scene.units_of_cons
      (x := { x with tasks := Task.creating args deadline ::ₘ x.tasks }) rfl).symm))
    hx.bound (subset_refl _)

theorem edit (hx : Sound s x) {rest : Multiset (Key × σ)} (h : x.handles = (key, state) ::ₘ rest)
    (state' : σ) : Sound s { x with handles := (key, state') ::ₘ rest } :=
  hx.still hx.distinct (fun _ => rfl) rfl
    (fun other => (Scene.hands_of_cons (x := { x with handles := (key, state') ::ₘ rest }) rfl
      other).trans (Scene.hands_of_cons h other).symm)
    (fun _ => rfl) hx.room hx.bound (subset_refl _)

theorem promote (hx : Sound s x) (key : Key) :
    Sound s { x with cache := x.cache.promote key } :=
  hx.still (hx.distinct.promote key) (Cache.slot?_promote x.cache key) (Cache.promote_usage _ _)
    (fun _ => rfl) (fun _ => rfl) ((Cache.spare_promote hx.distinct key).trans hx.room)
    (Cache.promote_occupied x.cache key ▸ hx.bound) (subset_refl _)

end Sound

/-- Each shift keeps `Sound`. -/
theorem Shift.sound (h : Shift s x ds x') (hx : Sound s x) : Sound s x' := by
  cases h with
  | pass | count | tamper | purge | attend | erase | spoil | loseParked => exact hx.same rfl rfl rfl rfl
  | promote key => exact hx.promote key
  | meet key =>
    exact hx.still hx.distinct (fun _ => rfl) rfl (fun _ => rfl) (fun _ => rfl) hx.room hx.bound
      (Set.subset_insert _ _)
  | edit state' h => exact hx.edit h state'
  | ask args deadline => exact hx.ask args deadline
  | announce deadline h _ hslot => exact hx.announce h hslot deadline
  | take h hd hc => exact hx.take h hd hc
  | quit h => exact hx.quit h
  | abandon h => exact hx.abandon h
  | retreat h => exact hx.retreat h
  | settle h _ _ _ hl _ => exact (hx.settle h hl _).same rfl rfl rfl rfl
  | loseComing h _ _ => exact (hx.retreat h).same rfl rfl rfl rfl
  | enter h hk _ _ hslot hl _ => exact (hx.enter h hk hslot hl).same rfl rfl rfl rfl
  | unmade _ h _ _ _ => exact (hx.unmade h _).same rfl rfl rfl rfl
  | checkOut time h hslot _ _ => exact (hx.checkOut h hslot time _ _).same rfl rfl rfl rfl
  | park h hslot _ _ _ => exact (hx.unlink_ready h hslot).same rfl rfl rfl rfl
  | stay h hslot _ _ _ => exact (hx.stay h hslot _).same rfl rfl rfl rfl
  | leave h hslot _ => exact (hx.unlink_ready h hslot).same rfl rfl rfl rfl
  | lose _ h hslot _ _ _ => exact (hx.unlink_ready h hslot).same rfl rfl rfl rfl
  | defer h hslot => exact hx.defer h hslot
  | giveIn hh h hslot hp _ hl _ => exact (hx.giveIn hh h hp hl _).same rfl rfl rfl rfl
  | leaveOut hh h _ _ _ => exact (hx.unlink_out hh).same rfl rfl rfl rfl
  | loseOut hh h _ _ _ _ => exact (hx.unlink_out hh).same rfl rfl rfl rfl

theorem Path.sound (h : Path s x ds x') (hx : Sound s x) : Sound s x' := h.keeps Shift.sound hx

end SessionCache
