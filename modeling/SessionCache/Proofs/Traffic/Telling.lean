import SessionCache.Proofs.Traffic.Alone

/-!
# Whoever waits for room is told

Operations that wait for room sleep until somebody tells them that there is some, or that a session has
become idle that could make it. No operation but those that need room themselves makes room without
telling (`Diary.Tells`), so nobody sleeps on while there is room.

What other callers do while an operation waits is in a diary (`Diary`): their requests, each with its
time.

* `Surroundings.Prompt`: callbacks take no time.
* `Op.Telling`: what an operation does is told; there is one lemma for each operation.
* `Request.telling`: the same of requests.
-/

namespace SessionCache

variable {σ ι ω α β : Type} {s : Surroundings σ ι ω} {w w' w'' : World σ ω} {key : Key} {n : Nat}

/-! ## Room -/

namespace Cache

variable {c : Cache σ}

/-- `Op.look` would not wait: `occupied < n`, or some slot is `.ready`. -/
def HasRoom (c : Cache σ) (n : Nat) : Prop :=
  c.occupied < n ∨ ∃ key slot, c.slot? key = some slot ∧ slot.stage = .ready

theorem HasRoom.of_update {f : Slot σ → Slot σ} (hf : ∀ slot, (f slot).stage = slot.stage)
    (h : (c.update key f).HasRoom n) : c.HasRoom n := by
  refine h.imp id ?_
  rintro ⟨k, slot, hslot, hready⟩
  rw [slot?_update] at hslot
  split at hslot
  · obtain ⟨slot', hslot', rfl⟩ := Option.map_eq_some_iff.mp hslot
    exact ⟨k, slot', hslot', (hf slot').symm.trans hready⟩
  · exact ⟨k, slot, hslot, hready⟩

theorem HasRoom.of_link {slot : Slot σ} (hs : slot.stage ≠ .ready) (h : (c.link key slot).HasRoom n) :
    c.HasRoom n := by
  refine h.imp id ?_
  rintro ⟨k, slot', hslot, hready⟩
  rw [lookup_link] at hslot
  split at hslot
  · obtain rfl := Option.some.inj hslot
    exact absurd hready hs
  · exact ⟨k, slot', hslot, hready⟩

theorem not_hasRoom (hfull : ¬c.occupied < n) (hready : ∀ p ∈ c.slots, p.2.stage ≠ .ready) :
    ¬c.HasRoom n := by
  rintro (hlt | ⟨key, slot, hslot, hstage⟩)
  · exact hfull hlt
  · exact hready _ (mem_of_slot? hslot) hstage

/-- Without room there is no `victim?`. -/
theorem victim?_of_not_hasRoom (hd : c.Distinct) (h : ¬c.HasRoom n) : c.victim? = none := by
  cases hv : c.victim? with
  | none => rfl
  | some victim =>
    obtain ⟨slot, hslot, -, hready⟩ := slot?_of_victim? hd hv
    exact absurd (.inr ⟨victim, slot, hslot, hready⟩) h

end Cache

/-! ## Telling -/

/-- What callers other than the one who waits will ask for: `todo` are their requests with the
times, read off `World.outside`. -/
structure Diary (σ ι ω : Type) where
  todo : ω → List (Instant × Request σ ι)
  /-- Takes the first request off `todo`. -/
  cross : ω → ω
  todo_cross : ∀ o, todo (cross o) = (todo o).tail

variable {diary : Diary σ ι ω}

/-- Callbacks change neither `now` nor `signals` nor `todo`, and the lock is free at once. -/
structure Surroundings.Prompt (s : Surroundings σ ι ω) (diary : Diary σ ι ω) : Prop where
  discreet : s.Discreet
  now : ∀ phase key state w,
    ((s.lifecycle.runPhase phase key state).run w).2.now = w.now
  signals : ∀ phase key state w,
    ((s.lifecycle.runPhase phase key state).run w).2.signals = w.signals
  todo : ∀ phase key state w,
    diary.todo ((s.lifecycle.runPhase phase key state).run w).2.outside = diary.todo w.outside
  lock : ∀ w, s.lockedAt w = w.now

/-- From `w` to `w'`, `now` and `todo` stay, and `signals` goes up where there is room that was not
there before. -/
structure Diary.Tells (diary : Diary σ ι ω) (n : Nat) (w w' : World σ ω) : Prop where
  now : w'.now = w.now
  todo : diary.todo w'.outside = diary.todo w.outside
  signals : w.signals < w'.signals ∨
    w'.signals = w.signals ∧ (w'.cache.HasRoom n → w.cache.HasRoom n)

namespace Diary

theorem lasting_tells (diary : Diary σ ι ω) (n : Nat) : Lasting (diary.Tells n) where
  refl w := ⟨rfl, rfl, .inr ⟨rfl, id⟩⟩
  trans h h' := by
    refine ⟨h'.now.trans h.now, h'.todo.trans h.todo, ?_⟩
    obtain hs | ⟨hs, hroom⟩ := h.signals
    · obtain hs' | ⟨hs', -⟩ := h'.signals
      · exact .inl (hs.trans hs')
      · exact .inl (hs'.symm ▸ hs)
    · obtain hs' | ⟨hs', hroom'⟩ := h'.signals
      · exact .inl (hs ▸ hs')
      · exact .inr ⟨hs'.trans hs, hroom ∘ hroom'⟩

theorem Tells.of_cache {c : Cache σ} (h : c.HasRoom n → w.cache.HasRoom n) (stays : Nat) :
    diary.Tells n w { w with cache := c, stays } := ⟨rfl, rfl, .inr ⟨rfl, h⟩⟩

theorem Tells.of_signal (c : Cache σ) :
    diary.Tells n w { w with cache := c, signals := w.signals + 1 } :=
  ⟨rfl, rfl, .inl (Nat.lt_succ_self _)⟩

theorem Tells.of_store (store : Store) : diary.Tells n w { w with store } :=
  ⟨rfl, rfl, .inr ⟨rfl, id⟩⟩

end Diary

namespace Op

/-- The worlds before and after `op` are in `diary.Tells n`, whatever it answers. -/
def Telling (diary : Diary σ ι ω) (n : Nat) (op : Op σ ω α) : Prop := Keeps (diary.Tells n) op

namespace Telling

theorem pure (a : α) : Telling diary n (Pure.pure a : Op σ ω α) := (diary.lasting_tells n).pure a

theorem throw (failure : CacheError) : Telling diary n (MonadExcept.throw failure : Op σ ω α) :=
  (diary.lasting_tells n).throw failure

theorem bind {op : Op σ ω α} {f : α → Op σ ω β} (hop : Telling diary n op)
    (hf : ∀ a, Telling diary n (f a)) : Telling diary n (op >>= f) :=
  (diary.lasting_tells n).bind hop hf

theorem attempt {op : Op σ ω α} (hop : Telling diary n op) : Telling diary n (Op.attempt op) := hop

theorem read : Telling diary n (Op.cache : Op σ ω (Cache σ)) := fun w => (diary.lasting_tells n).refl w

theorem now : Telling diary n (Op.now : Op σ ω Instant) := fun w => (diary.lasting_tells n).refl w

theorem step (stage : Stage) (event : Event) :
    Telling diary n (Op.step stage event : Op σ ω Stage) := by
  unfold Op.step
  split
  · exact pure _
  · exact throw _

theorem onStore (action : SessionStoreM α) : Telling diary n (Op.onStore action : Op σ ω α) := by
  intro w
  rw [exec_onStore]
  exact .of_store _

theorem modify {f : Cache σ → Cache σ} (hf : ∀ c, (f c).HasRoom n → c.HasRoom n) :
    Telling diary n (modifyCache f : Op σ ω Unit) := fun w => .of_cache (hf w.cache) w.stays

theorem count (f : Counters → Counters) : Telling diary n (modifyCounters f : Op σ ω Unit) :=
  modify fun _ => id

theorem change {f : Slot σ → Slot σ} (hf : ∀ slot, (f slot).stage = slot.stage) :
    Telling diary n (modifyCache (·.update key f) : Op σ ω Unit) := modify fun _ => .of_update hf

theorem unlink (key : Key) : Telling diary n (Op.unlink key : Op σ ω Unit) := fun _ => .of_signal _

theorem abandon (key : Key) (failure : CacheError) :
    Telling diary n (Op.abandon key failure : Op σ ω α) := bind (unlink key) fun _ => throw failure

theorem linkPlaceholder (key : Key) : Telling diary n (Op.linkPlaceholder key : Op σ ω Unit) := fun w =>
  .of_cache (.of_link (show Stage.passivated ≠ .ready from nofun)) (w.stays + 1)

theorem fire (hs : s.Prompt diary) (phase : Phase) (key : Key) (state : Option σ) :
    Telling diary n (s.lifecycle.fire phase key state) := by
  intro w
  rcases h : exec (s.lifecycle.fire phase key state) w with ⟨r, w'⟩
  have haside : Aside w w' := (exec_fire hs.discreet h).1
  have hw : w' = ((s.lifecycle.runPhase phase key state).run w).2 := by
    rw [Lifecycle.fire, exec_bind, exec_lift] at h
    rcases hc : (s.lifecycle.runPhase phase key state).run w with ⟨⟨after, _ | message⟩, w₁⟩ <;>
      rw [hc] at h <;> cases h <;> rfl
  refine ⟨?_, ?_, .inr ⟨?_, fun hroom => haside.cache ▸ hroom⟩⟩
  · rw [hw, hs.now]
  · rw [hw, hs.todo]
  · rw [hw, hs.signals]

/-! ## Operations that take sessions out of memory -/

theorem discardRecord (key : Key) : Telling diary n (Op.discardRecord key : Op σ ω Unit) :=
  bind (attempt (onStore _)) fun _ => count _

theorem forceRemove (key : Key) : Telling diary n (Op.forceRemove key : Op σ ω Unit) :=
  bind (unlink key) fun _ => discardRecord key

theorem takeBack (hs : s.Prompt diary) (state : σ) (failure : CacheError) :
    Telling diary n (Op.takeBack s key state failure) := by
  refine bind (count _) fun _ => bind (attempt (fire hs _ _ _)) fun undone => ?_
  cases undone with
  | error undoing => exact bind (forceRemove key) fun _ => throw _
  | ok after => exact bind (change fun _ => rfl) fun _ => throw _

theorem seeOff (hs : s.Prompt diary) : Telling diary n (Op.seeOff s key) := by
  refine bind (attempt (fire hs _ _ _)) fun fired => ?_
  cases fired with
  | error failure => exact bind (discardRecord key) fun _ => throw _
  | ok _ => exact pure _

theorem passivate (hs : s.Prompt diary) : Telling diary n (Op.passivate s key) := by
  refine bind read fun c => ?_
  split
  · exact throw _
  · refine bind (step _ _) fun _ => ?_
    split
    · exact throw _
    · refine bind (change fun _ => rfl) fun _ => bind (attempt (fire hs _ _ _)) fun fired => ?_
      cases fired with
      | error failure => exact bind (forceRemove key) fun _ => throw _
      | ok after =>
        refine bind now fun time => bind (attempt (onStore _)) fun written => ?_
        cases written with
        | error failure => exact takeBack hs _ _
        | ok _ => exact bind (unlink key) fun _ => bind (count _) fun _ => seeOff hs

theorem passivateCounting (hs : s.Prompt diary) (report : SweepReport) :
    Telling diary n (Op.passivateCounting s key report) := by
  refine bind (attempt (passivate hs)) fun answer => ?_
  cases answer <;> exact pure _

theorem sweepKeys (hs : s.Prompt diary) (timeout : Duration) (keys : List Key) (report : SweepReport) :
    Telling diary n (Op.sweepKeys s timeout keys report) := by
  induction keys generalizing report with
  | nil => exact pure _
  | cons key rest ih =>
    refine bind now fun time => bind read fun c => ?_
    split
    · split
      · exact bind (passivateCounting hs report) fun _ => ih _
      · exact ih _
    · exact ih _

theorem expirePassivated : Telling diary n (Op.expirePassivated s) := by
  unfold Op.expirePassivated
  split
  · exact pure _
  · exact bind now fun _ => bind (onStore _) fun _ => bind (count _) fun _ => pure _

theorem sweep (hs : s.Prompt diary) : Telling diary n (Op.sweep s) := by
  refine bind ?_ fun report => bind (attempt expirePassivated) fun answer => ?_
  · unfold Op.sweepIdle
    split
    · exact pure _
    · exact bind read fun _ => bind now fun _ => sweepKeys hs _ _ _
  · cases answer <;> exact pure _

theorem passivateStays (hs : s.Prompt diary) (stays : List (Key × Nat)) (report : SweepReport) :
    Telling diary n (Op.passivateStays s stays report) := by
  induction stays generalizing report with
  | nil => exact pure _
  | cons stay rest ih =>
    refine bind read fun c => ?_
    split
    · split
      · exact bind (passivateCounting hs report) fun _ => ih _
      · exact ih _
    · exact ih _

theorem passivateAll (hs : s.Prompt diary) : Telling diary n (Op.passivateAll s) :=
  bind read fun _ => passivateStays hs _ _

/-! ## Operations that callers ask for -/

theorem destroy (hs : s.Prompt diary) (state : Option σ) : Telling diary n (Op.destroy s key state) := by
  refine bind (attempt (fire hs _ _ _)) fun hook => bind (unlink key) fun _ =>
    bind (count _) fun _ => ?_
  cases hook with
  | error failure => exact throw _
  | ok _ => exact pure _

/-- `Op.regain` makes a session ready, and signals. -/
theorem regain (hs : s.Prompt diary) (state : σ) (next : Stage) :
    Telling diary n (Op.regain s key state next) := by
  refine bind (attempt (fire hs _ _ _)) fun fired => ?_
  cases fired with
  | error failure => exact bind (forceRemove key) fun _ => throw _
  | ok after => exact fun _ => ⟨hs.lock _, rfl, .inl (Nat.lt_succ_self _)⟩

theorem finish (hs : s.Prompt diary) (state : σ) : Telling diary n (Op.finish s key state) := by
  refine bind read fun c => ?_
  split
  · exact throw _
  · split
    · exact throw _
    · refine bind (step _ _) fun next => bind (change fun _ => rfl) fun _ => ?_
      split
      · exact destroy hs _
      · exact regain hs state next

theorem removeOnFinish (key : Key) : Telling diary n (Op.removeOnFinish key : Op σ ω Unit) :=
  change fun _ => rfl

theorem removePassivated (hs : s.Prompt diary) : Telling diary n (Op.removePassivated s key) := by
  refine bind (linkPlaceholder key) fun _ => bind (attempt (onStore _)) fun answer => ?_
  split
  · refine bind (attempt (fire hs _ _ _)) fun hook => bind (attempt (onStore _)) fun deleted => ?_
    cases deleted with
    | error failure => exact abandon key _
    | ok found =>
      refine bind (unlink key) fun _ => bind (count _) fun _ => ?_
      cases hook with
      | error failure => exact throw _
      | ok _ => exact pure _
  · exact unlink key
  · exact bind (unlink key) fun _ => count _
  · exact abandon key _

theorem remove (hs : s.Prompt diary) : Telling diary n (Op.remove s key) := by
  unfold Op.remove
  induction s.patience with
  | zero => exact throw _
  | succ looks ih =>
    refine bind read fun c => ?_
    split
    · exact removePassivated hs
    · split
      · exact throw _
      · split
        · exact bind (step _ _) fun _ => bind (change fun _ => rfl) fun _ => destroy hs _
        · exact removeOnFinish key
        · exact pure _
        · exact ih
        · exact ih

theorem peek : Telling diary n (Op.peek s key) := by
  refine bind read fun c => ?_
  split
  · split
    · exact throw _
    · exact bind now fun _ => pure _
  · refine bind (attempt (onStore _)) fun answer => ?_
    split
    · exact pure _
    · exact pure _
    · exact throw _

theorem contains (key : Key) : Telling diary n (Op.contains key : Op σ ω Bool) := by
  refine bind read fun c => ?_
  split
  · exact pure _
  · exact onStore _

end Telling

end Op

/-- The requests that need no unit of room and no handle: all but `create`, `get` and
`removeOnFinish`. -/
def Request.Frugal : Request σ ι → Prop
  | .create _ | .get _ | .removeOnFinish _ => False
  | _ => True

/-- A `Frugal` request signals if it makes room. -/
theorem Request.telling (hs : s.Prompt diary) {request : Request σ ι} (h : request.Frugal) :
    Op.Telling diary n (request.perform s) := by
  cases request with
  | create | get | removeOnFinish => exact h.elim
  | finish => exact .bind (.finish hs _) fun _ => .pure _
  | remove => exact .bind (.remove hs) fun _ => .pure _
  | sweep => exact .bind (.sweep hs) fun _ => .pure _
  | passivateAll => exact .bind (.passivateAll hs) fun _ => .pure _
  | expirePassivated => exact .bind .expirePassivated fun _ => .pure _
  | peek => exact .bind .peek fun _ => .pure _
  | contains key => exact .bind (.contains key) fun _ => .pure _

end SessionCache
