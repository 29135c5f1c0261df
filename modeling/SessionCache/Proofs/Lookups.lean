import SessionCache.Proofs.Traffic.Alone

/-!
# Three ways to look a session up

Whether there is a session under a key can be asked in three ways: `Op.contains` asks the store
whether it has a record, `Op.peek` reads the record as JSON, and `Op.get` brings the session into
memory. They take different ways, but tell the same: of a session in memory, checked out, in the
store, or of one that is not there, also if its record cannot be read.

* `World.Glances`: nothing changed but the number of calls to the backend.
* `Op.exec_contains_eq`, `Op.exec_peek_of_none`, `Op.exec_get_of_slot`, `Op.exec_get_stored`: what each
  of them answers.
* `Op.Agreeing`: the answers that go together.
* `Run.lookups`: they agree in every state that a cache in use gets to.
-/

namespace SessionCache

variable {σ ι ω : Type} {s : Surroundings σ ι ω} {d : Desk σ ι} {w w' : World σ ω} {key : Key}
  {slot : Slot σ} {state : σ}

/-- `decode` undoes `encode`, wherever `encode` gives a value. -/
def Codec.Restores (codec : Codec σ) : Prop :=
  ∀ state value, codec.encode state = .ok value → codec.decode value = some state

/-! ## Looking changes nothing -/

namespace Store

/-- `store'` is `store` but for `calls`. -/
def Glances (store store' : Store) : Prop := ∃ calls, store' = { store with calls }

theorem lasting_glances : Lasting Glances where
  refl store := ⟨store.calls, rfl⟩
  trans h h' := by
    obtain ⟨_, rfl⟩ := h
    obtain ⟨calls, rfl⟩ := h'
    exact ⟨calls, rfl⟩

theorem glances_pass (call : StoreCall) : Keeps Glances (pass call) := by
  intro store
  rw [exec_pass]
  split <;> exact ⟨store.calls + 1, rfl⟩

theorem glances_reply {α : Type} (result : Except StoreError α) : Keeps Glances (reply result) := by
  cases result
  · exact lasting_glances.throw _
  · exact lasting_glances.pure _

theorem glances_get (key : Key) : Keeps Glances (get key) :=
  lasting_glances.bind (glances_pass _) fun _ =>
    lasting_glances.bind (fun store => lasting_glances.refl store) fun _ => glances_reply _

theorem glances_contains (key : Key) : Keeps Glances (contains key) := by
  refine lasting_glances.bind (fun store => lasting_glances.refl store) fun store => ?_
  split
  · exact lasting_glances.bind (glances_get key) fun _ => lasting_glances.pure _
  · exact lasting_glances.bind (glances_pass _) fun _ =>
      lasting_glances.bind (fun store => lasting_glances.refl store) fun _ => glances_reply _

theorem glances_holds (key : Key) : Keeps Glances (holds key) := fun store => by
  rw [holds, exec_lifted]
  exact glances_contains key store

theorem glances_inspect (key : Key) : Keeps Glances (inspect key) := by
  refine lasting_glances.bind (lasting_glances.bind (fun store => ?_) fun bytes => ?_) fun bytes => ?_
  · rw [exec_lifted]
    exact glances_get key store
  · cases bytes
    · exact lasting_glances.throw _
    · exact lasting_glances.pure _
  · split
    · exact lasting_glances.pure _
    · exact lasting_glances.throw _

variable {store : Store}

theorem Serves.inspect (h : store.Serves) (e : StoreError) :
    (exec (inspect key) store).1 ≠ .error (.store e) := by
  obtain ⟨⟨bytes?, hget⟩, -⟩ := h store .refl key
  have hlifted : exec (lifted (get key)) store = (.ok bytes?, (exec (get key) store).2) := by
    rw [exec_lifted, hget]
    rfl
  rw [Store.inspect, bytesOf, bind_assoc, exec_bind_ok hlifted]
  cases bytes? with
  | none => rintro ⟨⟩
  | some bytes =>
    dsimp only
    rw [exec_bind_ok (exec_pure bytes _)]
    cases Envelope.decode key bytes <;> rintro ⟨⟩

/-- The state that `Store.stateOf` finds is what `codec.decode` makes of the JSON in the
envelope. -/
theorem decode_of_stateOf {codec : Codec σ} {bytes : ByteArray} {value : Json.Value}
    (hv : Envelope.decode key bytes = .ok value) (h : stateOf codec key bytes = .ok state) :
    codec.decode value = some state := by
  rw [stateOf, hv] at h
  simp only [bind, Except.bind] at h
  split at h
  · rename_i hd
    cases h
    exact hd
  · exact nomatch h

end Store

/-- `w'` is `w` but for `store.calls`. -/
def World.Glances (w w' : World σ ω) : Prop :=
  ∃ calls, w' = { w with store := { w.store with calls } }

namespace World.Glances

theorem cache (h : w.Glances w') : w'.cache = w.cache := by
  obtain ⟨calls, rfl⟩ := h
  rfl

theorem contents (h : w.Glances w') : w'.store.contents = w.store.contents := by
  obtain ⟨calls, rfl⟩ := h
  rfl

theorem scene (h : w.Glances w') (d : Desk σ ι) : w'.scene d = w.scene d := by
  obtain ⟨calls, rfl⟩ := h
  rfl

theorem trans {w'' : World σ ω} (h : w.Glances w') (h' : w'.Glances w'') : w.Glances w'' := by
  obtain ⟨_, rfl⟩ := h
  obtain ⟨calls, rfl⟩ := h'
  exact ⟨calls, rfl⟩

theorem of_store {α : Type} {action : SessionStoreM α} (h : Keeps Store.Glances action)
    (w : World σ ω) : w.Glances (exec (Op.onStore action : Op σ ω α) w).2 := by
  obtain ⟨calls, hcalls⟩ := h w.store
  rw [Op.exec_onStore, hcalls]
  exact ⟨calls, rfl⟩

end World.Glances

namespace Op

theorem exec_contains_glances {r : Except CacheError Bool} (h : exec (contains key) w = (r, w')) :
    w.Glances w' := by
  rw [contains, exec_bind_ok (exec_cache _)] at h
  split at h
  · cases h
    exact ⟨w.store.calls, rfl⟩
  · have hglances := World.Glances.of_store (Store.glances_holds key) w
    rwa [h] at hglances

theorem exec_peek_glances {r : Except CacheError EntryInfo} (h : exec (peek s key) w = (r, w')) :
    w.Glances w' := by
  rw [peek, exec_bind_ok (exec_cache _)] at h
  split at h
  · split at h
    · cases h
      exact ⟨w.store.calls, rfl⟩
    · rw [exec_bind_ok (exec_now _)] at h
      cases h
      exact ⟨w.store.calls, rfl⟩
  · obtain ⟨answer, w₁, hq, h⟩ := exec_attempt_bind h
    have hglances := World.Glances.of_store (Store.glances_inspect key) w
    rw [hq] at hglances
    split at h <;> cases h <;> exact hglances

/-! ## What is answered -/

/-- `Op.contains` is `true` if `key` has a slot or a record. -/
theorem exec_contains_eq (hserves : w.store.Serves) :
    (exec (contains key) w).1 = .ok (w.cache.isLinked key || (w.store.contents key).isSome) := by
  rcases h : exec (contains key) w with ⟨r, w'⟩
  obtain ⟨-, rfl | ⟨hslot, e, rfl⟩⟩ := exec_contains h ({} : Desk σ Unit)
  · rfl
  · rw [contains, exec_bind_ok (exec_cache _),
      show w.cache.isLinked key = false by rw [Cache.isLinked, hslot]; rfl, if_neg Bool.false_ne_true,
      exec_onStore] at h
    obtain ⟨store, hq, -⟩ := hserves.exec_holds key
    rw [hq] at h
    cases congrArg Prod.fst h

/-- What `Op.peek` answers for a key with a slot: `slot.info`, unless the slot is `held`. -/
theorem exec_peek_of_slot (hslot : w.cache.slot? key = some slot) :
    (exec (peek s key) w).1 =
      if slot.held then .error .stalled else .ok (slot.info s.codec w.now key) := by
  rw [peek, exec_bind_ok (exec_cache _), hslot]
  dsimp only
  split
  · rfl
  · rw [exec_bind_ok (exec_now _)]
    rfl

/-- What `Op.peek` answers for a key without a slot: `.passivated` with the JSON of its record, or
`.notFound key`. -/
theorem exec_peek_of_none (hslot : w.cache.slot? key = none) (hserves : w.store.Serves) :
    (exec (peek s key) w).1 = match w.store.contents key with
      | none => .error (.notFound key)
      | some bytes =>
        .ok ⟨key, .passivated, none, false, (Envelope.decode key bytes).toOption⟩ := by
  rcases hq : exec (Store.inspect key) w.store with ⟨r, store⟩
  have hne : ∀ e, r ≠ .error (.store e) := fun e he =>
    hserves.inspect e ((congrArg Prod.fst hq).trans he)
  obtain ⟨-, -, hcases⟩ := Store.exec_inspect hq
  rw [peek, exec_bind_ok (exec_cache _), hslot]
  dsimp only
  rw [exec_bind_ok (exec_attempt _ _), exec_onStore, hq]
  obtain ⟨bytes, value, rfl, hc, hv⟩ | ⟨rfl, hc⟩ | ⟨bytes, fault, rfl, hc, hv⟩ | ⟨e, rfl⟩ := hcases
  · rw [hc]
    dsimp only
    rw [hv]
    rfl
  · rw [hc]
    rfl
  · rw [hc]
    dsimp only
    rw [hv]
    rfl
  · exact absurd rfl (hne e)

/-- What `Op.get` answers for a key with a slot: its state if it is `.ready`, `.inUse key` if it is
checked out, `.stalled` if it is `held`. -/
theorem exec_get_of_slot (hs : s.Calm) (hp : s.patience ≠ 0) (hx : Sound s (w.scene d))
    (hslot : w.cache.slot? key = some slot) :
    (∃ state, slot.IsReady state ∧ (exec (get s key) w).1 = .ok state) ∨
      (slot.IsOut ∧ (exec (get s key) w).1 = .error (.inUse key)) ∨
      slot.IsPlaceholder ∧ (exec (get s key) w).1 = .error .stalled := by
  obtain ⟨looks, hlooks⟩ := Nat.exists_eq_succ_of_ne_zero hp
  have hslot' : (w.cache.promote key).slot? key = some slot :=
    (Cache.slot?_promote w.cache key key).trans hslot
  rw [get, hlooks, getLooking, exec_bind_ok (exec_modifyCache _ _), exec_bind_ok (exec_cache _)]
  dsimp only
  rw [hslot']
  dsimp only
  obtain ⟨state, hr⟩ | ho | hp := hx.kinds hslot
  · obtain ⟨w', hw'⟩ := exec_checkOut_calm (w := { w with cache := w.cache.promote key }) hs hslot'
      hr.stage hr.payload
    rw [hr.held, if_neg Bool.false_ne_true, hr.stage]
    exact .inl ⟨state, hr, congrArg Prod.fst hw'⟩
  · rw [ho.held, if_neg Bool.false_ne_true, ho.stage]
    exact .inr (.inl ⟨ho, rfl⟩)
  · rw [hp.held, if_pos rfl]
    exact .inr (.inr ⟨hp, rfl⟩)

/-- `Op.get` of a key with a record and no slot answers neither `.notFound` nor `.inUse`, and if it
answers a state, that is the state in the record. -/
theorem exec_get_stored (hs : s.Calm) (ha : s.Alone) (hp : s.patience ≠ 0)
    (hx : Sound s (w.scene d)) (hslot : w.cache.slot? key = none) {bytes : ByteArray}
    (hr : w.store.contents key = some bytes) :
    (∃ state, (exec (get s key) w).1 = .ok state ∧ Store.stateOf s.codec key bytes = .ok state) ∨
      ∃ e, (exec (get s key) w).1 = .error e ∧ ∀ k, e ≠ .notFound k ∧ e ≠ .inUse k := by
  rw [get_of_none hp hslot]
  rcases hactivate : exec (activate s key) w with ⟨r, w'⟩
  have herror : ∀ {e}, r = .error e → (∀ k, e ≠ .notFound k ∧ e ≠ .inUse k) →
      ∃ e, (exec (do activate s key; checkOut s key) w).1 = .error e ∧
        ∀ k, e ≠ .notFound k ∧ e ≠ .inUse k := by
    rintro e rfl he
    rw [exec_bind_error hactivate]
    exact ⟨e, rfl, he⟩
  cases exec_activate_alone hs.discreet ha hx hslot hactivate with
  | absent hnone => exact nomatch hr.symm.trans hnone
  | unheard => exact .inr (herror rfl fun k => ⟨nofun, nofun⟩)
  | roomless _ _ he =>
    refine .inr (herror rfl fun k => ?_)
    cases he with
    | capacity he => constructor <;> rintro rfl <;> exact nomatch he
    | stalled | lifecycle => exact ⟨nofun, nofun⟩
  | @settled w₁ w₂ _ h₁ hi hsettle =>
    obtain ⟨hslot₂, hcontents, -⟩ := hi.placeholder hs.discreet h₁
    obtain ⟨answer, now, y, hloaded, -, hend⟩ :=
      exec_settle_loaded hs.discreet (w := w₂.taken) hslot₂ hsettle d
    obtain ⟨state, rfl, hb⟩ | ⟨fault, rfl, -⟩ | ⟨e, rfl⟩ :=
      hloaded.of_record hs (hcontents.trans hr)
    · obtain ⟨_, time, ⟨⟩, rfl, hheld⟩ | ⟨_, ⟨⟩, -⟩ := hend
      obtain ⟨w₃, hw₃⟩ := exec_checkOut_calm hs hheld rfl rfl
      rw [exec_bind_ok hactivate, hw₃]
      exact .inl ⟨state, rfl, hb⟩
    · obtain ⟨_, _, ⟨⟩, -⟩ | ⟨_, ⟨⟩, rfl⟩ := hend
      exact .inr (herror rfl fun k => ⟨nofun, nofun⟩)
    · obtain ⟨_, _, ⟨⟩, -⟩ | ⟨_, ⟨⟩, rfl⟩ := hend
      exact .inr (herror rfl fun k => ⟨nofun, nofun⟩)

/-- `Op.get` of a key with neither slot nor record answers `.notFound key`. -/
theorem exec_get_absent (hp : s.patience ≠ 0)
    (hslot : w.cache.slot? key = none) (hr : w.store.contents key = none)
    (hserves : w.store.Serves) : (exec (get s key) w).1 = .error (.notFound key) := by
  obtain ⟨store, hq, -⟩ := hserves.exec_holds key
  have hannounce : (exec (announce key) w).1 = .error (.notFound key) := by
    rw [announce, exec_bind_ok (exec_linkPlaceholder _ _), exec_bind_ok (exec_attempt _ _),
      exec_onStore, hq, hr]
    rfl
  rw [get_of_none hp hslot, activate, bind_assoc, exec_bind_error (Prod.ext hannounce rfl)]

/-! ## Answers that go together -/

/-- The answers of `Op.contains`, `Op.peek` and `Op.get` that go together. -/
inductive Agreeing (codec : Codec σ) (key : Key) :
    Except CacheError Bool → Except CacheError EntryInfo → Except CacheError σ → Prop where
  /-- The slot is `.ready`. -/
  | ready {info : EntryInfo} {state : σ} (hi : info.stage = .ready)
      (hv : ∀ value, info.snapshot = some value → codec.encode state = .ok value) :
      Agreeing codec key (.ok true) (.ok info) (.ok state)
  /-- The slot is `.inUse`. -/
  | out {info : EntryInfo} (hi : info.stage = .inUse) :
      Agreeing codec key (.ok true) (.ok info) (.error (.inUse key))
  /-- The slot is `held` by an activation: `peek` and `get` would wait for it. -/
  | coming : Agreeing codec key (.ok true) (.error .stalled) (.error .stalled)
  /-- There is a record and no slot, and `get` gets the state that the snapshot shows. -/
  | stored {info : EntryInfo} {state : σ} (hi : info.stage = .passivated)
      (hv : ∀ value, info.snapshot = some value → codec.decode value = some state) :
      Agreeing codec key (.ok true) (.ok info) (.ok state)
  /-- There is a record and no slot, and `get` fails, but with neither `.notFound` nor `.inUse`. -/
  | stuck {info : EntryInfo} {e : CacheError} (hi : info.stage = .passivated)
      (he : ∀ k, e ≠ .notFound k ∧ e ≠ .inUse k) :
      Agreeing codec key (.ok true) (.ok info) (.error e)
  /-- Neither slot nor record. -/
  | absent : Agreeing codec key (.ok false) (.error (.notFound key)) (.error (.notFound key))

/-- `Op.contains`, `Op.peek` and `Op.get`, each in a world that differs from `w` in `store.calls`
only, have answers that are `Agreeing`. -/
theorem exec_agreeing {w₁ w₂ : World σ ω} (hs : s.Calm) (ha : s.Alone) (hp : s.patience ≠ 0)
    (hx : Sound s (w.scene d)) (h₁ : w.Glances w₁) (h₂ : w.Glances w₂) (hserves : w.store.Serves)
    (hserves₁ : w₁.store.Serves) (hserves₂ : w₂.store.Serves) :
    Agreeing s.codec key (exec (contains key) w).1 (exec (peek s key) w₁).1 (exec (get s key) w₂).1 := by
  rw [exec_contains_eq hserves]
  have hx₂ : Sound s (w₂.scene d) := h₂.scene d ▸ hx
  cases hslot : w.cache.slot? key with
  | some slot =>
    have hlinked : w.cache.isLinked key = true := by rw [Cache.isLinked, hslot]; rfl
    have hslot₁ : w₁.cache.slot? key = some slot := h₁.cache ▸ hslot
    have hslot₂ : w₂.cache.slot? key = some slot := h₂.cache ▸ hslot
    rw [hlinked, Bool.true_or, exec_peek_of_slot hslot₁]
    obtain ⟨state, hr, hget⟩ | ⟨ho, hget⟩ | ⟨hp, hget⟩ := exec_get_of_slot hs hp hx₂ hslot₂
    · rw [hget, hr.held, if_neg Bool.false_ne_true]
      refine .ready hr.stage fun value hv => ?_
      rw [Slot.info, hr.payload] at hv
      cases he : s.codec.encode state with
      | error message => rw [Option.bind_some, he] at hv; cases hv
      | ok value' => rw [Option.bind_some, he] at hv; exact congrArg _ (Option.some.inj hv)
    · rw [hget, ho.held, if_neg Bool.false_ne_true]
      exact .out ho.stage
    · rw [hget, hp.held, if_pos rfl]
      exact .coming
  | none =>
    have hlinked : w.cache.isLinked key = false := by rw [Cache.isLinked, hslot]; rfl
    have hslot₁ : w₁.cache.slot? key = none := h₁.cache ▸ hslot
    have hslot₂ : w₂.cache.slot? key = none := h₂.cache ▸ hslot
    rw [hlinked, Bool.false_or, exec_peek_of_none hslot₁ hserves₁, h₁.contents]
    cases hr : w.store.contents key with
    | some bytes =>
      have hr₂ : w₂.store.contents key = some bytes := h₂.contents ▸ hr
      obtain ⟨state, hget, hb⟩ | ⟨e, hget, he⟩ := exec_get_stored hs ha hp hx₂ hslot₂ hr₂
      · rw [hget]
        refine .stored rfl fun value hv => ?_
        cases hd : Envelope.decode key bytes with
        | error fault => rw [hd] at hv; cases hv
        | ok value' =>
          rw [hd] at hv
          obtain rfl : value' = value := Option.some.inj hv
          exact Store.decode_of_stateOf hd hb
      · rw [hget]
        exact .stuck rfl he
    | none =>
      rw [exec_get_absent hp hslot₂ (h₂.contents ▸ hr) hserves₂]
      exact .absent

namespace Agreeing

variable {codec : Codec σ} {found : Except CacheError Bool} {info : Except CacheError EntryInfo}
  {answer : Except CacheError σ}

/-- `contains` is `true` if and only if `peek` does not answer `.notFound`, and if and only if `get`
does not. -/
theorem found_iff (h : Agreeing codec key found info answer) :
    ∃ present, found = .ok present ∧
      (present = true ↔ ∀ k, info ≠ .error (.notFound k)) ∧
      (present = true ↔ ∀ k, answer ≠ .error (.notFound k)) := by
  cases h with
  | ready | out | coming | stored =>
    exact ⟨true, rfl, ⟨fun _ _ => nofun, fun _ => rfl⟩, ⟨fun _ _ => nofun, fun _ => rfl⟩⟩
  | stuck _ he =>
    refine ⟨true, rfl, ⟨fun _ _ => nofun, fun _ => rfl⟩, ⟨fun _ k h => ?_, fun _ => rfl⟩⟩
    exact (he k).1 (Except.error.inj h)
  | absent =>
    exact ⟨false, rfl, ⟨nofun, fun h => absurd rfl (h key)⟩, ⟨nofun, fun h => absurd rfl (h key)⟩⟩

/-- `peek` tells `.inUse` if and only if `get` answers `.inUse`. -/
theorem inUse_iff (h : Agreeing codec key found info answer) :
    (∃ told, info = .ok told ∧ told.stage = .inUse) ↔ ∃ k, answer = .error (.inUse k) := by
  cases h with
  | @ready info state hi _ | @stored info state hi _ =>
    refine ⟨?_, fun ⟨k, hk⟩ => nomatch hk⟩
    rintro ⟨told, ⟨⟩, hout⟩
    exact nomatch hi.symm.trans hout
  | @out info hi => exact ⟨fun _ => ⟨key, rfl⟩, fun _ => ⟨info, rfl, hi⟩⟩
  | @stuck info e hi he =>
    refine ⟨?_, fun ⟨k, hk⟩ => absurd (Except.error.inj hk) (he k).2⟩
    rintro ⟨told, ⟨⟩, hout⟩
    exact nomatch hi.symm.trans hout
  | coming | absent => exact ⟨fun ⟨_, hi, _⟩ => (nomatch hi), fun ⟨_, hk⟩ => nomatch hk⟩

/-- What `peek` shows as `snapshot` is read by `codec.decode` as the state that `get` answers. -/
theorem snapshot (h : Agreeing codec key found info answer) (hc : codec.Restores)
    {told : EntryInfo} {value : Json.Value} (hi : info = .ok told) (hv : told.snapshot = some value)
    (ha : answer = .ok state) : codec.decode value = some state := by
  cases h with
  | ready _ hready =>
    obtain ⟨⟩ := hi
    obtain ⟨⟩ := ha
    exact hc _ _ (hready value hv)
  | stored _ hstored =>
    obtain ⟨⟩ := hi
    obtain ⟨⟩ := ha
    exact hstored value hv
  | out | coming | stuck | absent => exact nomatch ha

end Agreeing

end Op

/-- In every reachable state, with any bytes in the records, `Op.contains`, `Op.peek` and `Op.get`
of a key, one after the other in any order and with no step of another caller between or during them
(`Alone`), agree: on whether there is a session, on whether it is checked out, and on its state. -/
theorem Run.lookups {t t' : Traffic σ ι ω} {events : List (Traffic.Event σ ι)} {w₁ w₂ w₃ : World σ ω}
    {found : Except CacheError Bool} {info : Except CacheError EntryInfo} {answer : Except CacheError σ}
    (hs : s.Calm) (ha : s.Alone) (hp : s.patience ≠ 0) (ht : t.Fresh s) (h : Run s t events t')
    (hserves : t'.world.store.Serves) (hcontains : exec (Op.contains key) t'.world = (found, w₁))
    (hpeek : exec (Op.peek s key) w₁ = (info, w₂)) (hget : exec (Op.get s key) w₂ = (answer, w₃)) :
    (∃ present, found = .ok present ∧
        (present = true ↔ ∀ k, info ≠ .error (.notFound k)) ∧
        (present = true ↔ ∀ k, answer ≠ .error (.notFound k))) ∧
      ((∃ told, info = .ok told ∧ told.stage = .inUse) ↔ ∃ k, answer = .error (.inUse k)) ∧
      (s.codec.Restores → ∀ told value state, info = .ok told → told.snapshot = some value →
        answer = .ok state → s.codec.decode value = some state) ∧
      t'.world.Glances w₁ ∧ w₁.Glances w₂ := by
  have h₁ := Op.exec_contains_glances hcontains
  have h₂ := Op.exec_peek_glances hpeek
  have hserves₁ : w₁.store.Serves :=
    hserves.moves (Keeps.at (Op.Harmless.contains (Op.allows_moves _)) hcontains)
  have hserves₂ : w₂.store.Serves :=
    hserves₁.moves (Keeps.at (Op.Harmless.peek (Op.allows_moves _)) hpeek)
  have hagreeing : Op.Agreeing s.codec key _ _ _ := Op.exec_agreeing hs ha hp
    (h.sound hs.discreet ht) h₁ (h₁.trans h₂) hserves hserves₁ hserves₂
  rw [hcontains, hpeek, hget] at hagreeing
  exact ⟨hagreeing.found_iff, hagreeing.inUse_iff,
    fun hc _ _ _ hi hv ha => hagreeing.snapshot hc hi hv ha, h₁, h₂⟩

theorem Surroundings.small_calm : (Surroundings.small fun _ _ => false).Calm := recording_calm

theorem Surroundings.recording_alone {settings : Settings} {codec : Codec σ}
    {fails : Phase → Key → Bool} {keyOf : Nat → Key} :
    (recording settings codec fails keyOf).Alone := fun _ w => .refl w

/-- The theorem applies to a session that was made, given back and passivated. -/
theorem Run.lookups_of_parked :
    ∃ events t' found info answer w₁ w₂ w₃,
      Run (.small fun _ _ => false) (.small (fun _ _ => false) fun _ _ => none) events t' ∧
      t'.world.cache.isLinked (.ofNat 0) = false ∧ t'.world.store.contents (.ofNat 0) ≠ none ∧
      exec (Op.contains (.ofNat 0)) t'.world = (.ok found, w₁) ∧
      exec (Op.peek (.small fun _ _ => false) (.ofNat 0)) w₁ = (info, w₂) ∧
      exec (Op.get (.small fun _ _ => false) (.ofNat 0)) w₂ = (answer, w₃) ∧
      (found = true ↔ ∀ k, info ≠ .error (.notFound k)) ∧
      (found = true ↔ ∀ k, answer ≠ .error (.notFound k)) ∧
      t'.world.Glances w₁ ∧ w₁.Glances w₂ := by
  have h₁ := (Run.nil (s := .small fun _ _ => false)
    (t := .small (fun _ _ => false) fun _ _ => none)).thenCreate true (by decide) (fun hk => hk rfl)
  have h₂ := h₁.thenServe .passivateAll trivial
  obtain ⟨⟨found, hfound, hinfo, hanswer⟩, -, -, hglances₁, hglances₂⟩ := Run.lookups
    (t := .small (fun _ _ => false) fun _ _ => none) Surroundings.small_calm
    Surroundings.recording_alone (by decide) (Traffic.opened_fresh _ _ _ _) h₂
    (Store.serves_of_memory (fun _ _ _ => rfl) rfl)
    (show exec (Op.contains (.ofNat 0)) _ = _ from (Prod.eta _).symm) (Prod.eta _).symm
    (Prod.eta _).symm
  exact ⟨_, _, found, _, _, _, _, _, h₂, by decide, by decide, Prod.ext hfound rfl,
    (Prod.eta _).symm, (Prod.eta _).symm, hinfo, hanswer, hglances₁, hglances₂⟩

end SessionCache
