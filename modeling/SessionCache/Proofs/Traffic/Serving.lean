import SessionCache.Proofs.Store.Agreement
import SessionCache.Proofs.Traffic.Keeping
import SessionCache.Proofs.Traffic.Waiting

/-!
# Stores that serve

A store serves if its backend fails at nothing but writing. Over such a store, an operation that
only reads and deletes does not fail because of the store (`Op.Steady`).

* `Store.serves_of_memory`, `Store.serves_of_table`: the two backends that serve, behind a gate
  that refuses nothing but writing; `Store.serves_of_holds`: and every backend with records and
  nothing else, behind an open gate.
* `Store.Deletes`: the store never fails at deleting. Then a purge deletes the records that it
  answers, and no others (`Store.exec_purgeOlderThan_of_deletes`).
* `Op.Steady.settle`, `Op.Steady.remove`: to bring a session into memory, and to remove one.
* `Step.moves`, `Run.moves`: whatever happens, the store goes on by calls of its backend.
-/

namespace SessionCache

namespace Store

variable {s s' : Store} {key : Key}

/-- No call but `put` fails, now and after any `Store.Moves`. -/
def Serves (s : Store) : Prop :=
  ∀ later, s.Moves later → ∀ key,
    (∃ bytes?, (exec (get key) later).1 = .ok bytes?) ∧
      (∃ found, (exec (delete key) later).1 = .ok found) ∧
      ∃ found, (exec (contains key) later).1 = .ok found

theorem Serves.moves (h : s.Serves) (hm : s.Moves s') : s'.Serves := fun later hl =>
  h later (lasting_moves.trans hm hl)

/-- `fault` lets no call but `put` fail. -/
def Admits (s : Store) : Prop :=
  ∀ n call, (∀ key, call ≠ .put key) → s.fault n call = none

theorem Moves.fault (h : s.Moves s') : s'.fault = s.fault := by
  induction h with
  | refl => rfl
  | look | put | delete => assumption

/-- A property of the backend that `put` and `delete` keep holds after `Store.Moves`. -/
theorem Moves.backend {P : Backend → Prop} (hput : ∀ {b}, P b → ∀ now key bytes, P (b.put now key bytes).2)
    (hdelete : ∀ {b}, P b → ∀ key, P (b.delete key).2) (h : s.Moves s') (hs : P s.backend) :
    P s'.backend := by
  induction h with
  | refl => exact hs
  | look _ ih => exact ih
  | put _ now key bytes ih => exact hput ih now key bytes
  | delete _ key ih => exact hdelete ih key

/-- A store `Serves` if it `Admits` and its backend has a property that `put` and `delete` keep and
under which reading and deleting succeed. -/
theorem serves_of_backend {P : Backend → Prop} (hgate : s.Admits)
    (hput : ∀ {b}, P b → ∀ now key bytes, P (b.put now key bytes).2)
    (hdelete : ∀ {b}, P b → ∀ key, P (b.delete key).2)
    (hreads : ∀ {b}, P b → ∀ key, (∃ bytes?, b.get key = .ok bytes?) ∧
      (∃ found, (b.delete key).1 = .ok found) ∧ ∃ found, b.contains key = .ok found)
    (hs : P s.backend) : s.Serves := by
  intro later hm key
  have hfault : ∀ call, (∀ key, call ≠ .put key) → later.fault later.calls call = none := fun call hc => by
    rw [hm.fault]
    exact hgate _ call hc
  obtain ⟨⟨bytes?, hget⟩, ⟨found, hdeleted⟩, ⟨there, hcontains⟩⟩ :=
    hreads (hm.backend hput hdelete hs) key
  have hread : exec (get key) later = (.ok bytes?, later.called later.backend) := by
    rw [exec_get, hfault (.get key) fun _ => by simp, hget]
  refine ⟨⟨bytes?, by rw [hread]⟩, ⟨found, ?_⟩, ?_⟩
  · rw [exec_delete, hfault (.delete key) fun _ => by simp]
    exact hdeleted
  · rw [contains, exec_bind_ok (exec_getThe _)]
    split
    · exact ⟨bytes?.isSome, by rw [exec_bind_ok hread]; rfl⟩
    · refine ⟨there, ?_⟩
      have hpass : exec (pass (.contains key)) later = (.ok (), later.called later.backend) := by
        rw [exec_pass, hfault (.contains key) fun _ => by simp]
      rw [exec_bind_ok hpass, exec_bind_ok (exec_getThe _), exec_reply]
      exact hcontains

theorem serves_of_memory {m : Memory} (hgate : s.Admits) (hs : s.backend = .memory m) :
    s.Serves := by
  refine serves_of_backend (P := fun b => ∃ m, b = .memory m) hgate ?_ ?_ ?_ ⟨m, hs⟩
  · rintro _ ⟨m, rfl⟩ now key bytes
    exact ⟨_, rfl⟩
  · rintro _ ⟨m, rfl⟩ key
    exact ⟨_, rfl⟩
  · rintro _ ⟨m, rfl⟩ key
    exact ⟨⟨_, rfl⟩, ⟨_, rfl⟩, ⟨_, rfl⟩⟩

theorem serves_of_table {t : Table} (hgate : s.Admits) (hs : s.backend = .table t) :
    s.Serves := by
  refine serves_of_backend (P := fun b => ∃ t, b = .table t) hgate ?_ ?_ ?_ ⟨t, hs⟩
  · rintro _ ⟨t, rfl⟩ now key bytes
    exact ⟨_, rfl⟩
  · rintro _ ⟨t, rfl⟩ key
    exact ⟨_, rfl⟩
  · rintro _ ⟨t, rfl⟩ key
    exact ⟨⟨_, rfl⟩, ⟨_, rfl⟩, ⟨_, rfl⟩⟩

/-- A backend that holds a list of records does so after `Store.Moves`. -/
theorem Moves.holds {l : Entries} (h : s.Moves s') (hl : s.backend.Holds l) :
    ∃ l', s'.backend.Holds l' :=
  h.backend (P := fun b => ∃ l, b.Holds l)
    (fun ⟨_, hl⟩ now key bytes => ⟨_, (hl.put now key bytes).2⟩)
    (fun ⟨_, hl⟩ key => ⟨_, (hl.delete key).2⟩) ⟨l, hl⟩

theorem serves_of_holds {l : Entries} (hopen : s.Open) (hl : s.backend.Holds l) : s.Serves := by
  refine serves_of_backend (P := fun b => ∃ l, b.Holds l) (fun n call _ => hopen n call) ?_ ?_ ?_
    ⟨l, hl⟩
  · rintro _ ⟨l, hl⟩ now key bytes
    exact ⟨_, (hl.put now key bytes).2⟩
  · rintro _ ⟨l, hl⟩ key
    exact ⟨_, (hl.delete key).2⟩
  · rintro _ ⟨l, hl⟩ key
    exact ⟨⟨_, hl.get key⟩, ⟨_, (hl.delete key).1⟩, ⟨_, hl.contains key⟩⟩

/-! ## Stores that delete -/

/-- No `delete` fails, now and after any `Store.Moves`. -/
structure Deletes (s : Store) : Prop where
  gate : ∀ n key, s.fault n (.delete key) = none
  backend : ∀ later, s.Moves later → ∀ key, ∃ found, (later.backend.delete key).1 = .ok found

theorem Deletes.moves (h : s.Deletes) (hm : s.Moves s') : s'.Deletes where
  gate n key := by rw [hm.fault]; exact h.gate n key
  backend later hl := h.backend later (lasting_moves.trans hm hl)

theorem deletes_of_memory {m : Memory} (hgate : ∀ n key, s.fault n (.delete key) = none)
    (hs : s.backend = .memory m) : s.Deletes := by
  refine ⟨hgate, fun later hm key => ?_⟩
  obtain ⟨m, h⟩ : ∃ m, later.backend = .memory m := by
    refine hm.backend (P := fun b => ∃ m, b = .memory m) ?_ ?_ ⟨m, hs⟩
    · rintro _ ⟨m, rfl⟩ now key bytes
      exact ⟨_, rfl⟩
    · rintro _ ⟨m, rfl⟩ key
      exact ⟨_, rfl⟩
  rw [h]
  exact ⟨_, rfl⟩

theorem deletes_of_holds {l : Entries} (hgate : ∀ n key, s.fault n (.delete key) = none)
    (hl : s.backend.Holds l) : s.Deletes where
  gate := hgate
  backend later hm key := by
    obtain ⟨l', hl'⟩ := hm.holds hl
    exact ⟨_, (hl'.delete key).1⟩

theorem Deletes.exec_delete (h : s.Deletes) (key : Key) :
    ∃ s', exec (delete key) s = (.ok (s.contents key).isSome, s') ∧
      s'.contents = Function.update s.contents key none := by
  obtain ⟨found, hfound⟩ := h.backend s .refl key
  rcases hd : exec (delete key) s with ⟨r, s'⟩
  have hr : r = .ok found := by
    rw [Store.exec_delete, h.gate] at hd
    exact (congrArg Prod.fst hd).symm.trans hfound
  subst hr
  obtain ⟨-, hcontents, rfl⟩ := delete_contents hd
  exact ⟨s', rfl, hcontents⟩

theorem exec_purge_of_deletes (h : s.Deletes) (cutoff : Instant) (metas : List RecordMeta) :
    ∃ keys s', exec (purge cutoff metas) s = (.ok keys, s') ∧ keys.Nodup ∧
      (∀ key ∈ keys, s.contents key ≠ none) ∧
      s'.contents = fun key => if key ∈ keys then none else s.contents key := by
  induction metas generalizing s with
  | nil => exact ⟨[], s, rfl, .nil, by simp, by simp⟩
  | cons m rest ih =>
    rw [purge]
    split
    · obtain ⟨s₁, hdelete, hcontents⟩ := h.exec_delete m.key
      obtain ⟨keys, s', hrest, hnodup, hthere, hgone⟩ :=
        ih (h.moves ((keeps_delete m.key).at hdelete))
      rw [exec_bind_ok hdelete, exec_bind_ok hrest]
      rw [hcontents] at hthere hgone
      have hnot : m.key ∉ keys := fun hmem => hthere m.key hmem (Function.update_self ..)
      have hother : ∀ key ∈ keys, key ≠ m.key := fun key hmem he => hnot (he ▸ hmem)
      cases hm : (s.contents m.key).isSome with
      | true =>
        refine ⟨m.key :: keys, s', rfl, List.nodup_cons.mpr ⟨hnot, hnodup⟩, ?_, ?_⟩
        · intro key hkey
          obtain rfl | hkey := List.mem_cons.mp hkey
          · exact Option.isSome_iff_ne_none.mp hm
          · have hne := hthere key hkey
            rwa [Function.update_of_ne (hother key hkey)] at hne
        · rw [hgone]
          funext key
          by_cases hk : key = m.key
          · simp [hk]
          · simp [hk]
      | false =>
        have hnone : s.contents m.key = none := by simpa using hm
        have hsame : Function.update s.contents m.key none = s.contents := by
          rw [← hnone, Function.update_eq_self]
        rw [hsame] at hthere hgone
        exact ⟨keys, s', rfl, hnodup, hthere, hgone⟩
    · obtain ⟨keys, s', hrest, hall⟩ := ih h
      refine ⟨keys, s', ?_, hall⟩
      rw [exec_bind_ok (exec_pure false s), exec_bind_ok hrest]
      rfl

/-- `Store.purgeOlderThan` of a store that `Deletes` answers the keys whose records it deleted, or
fails at listing and deletes none. -/
theorem exec_purgeOlderThan_of_deletes (h : s.Deletes) {cutoff : Instant}
    {r : Except CacheError (List Key)} (hp : exec (purgeOlderThan cutoff) s = (r, s')) :
    ∃ keys : List Key, (r = .ok keys ∨ keys = [] ∧ ∃ e, r = .error e) ∧ keys.Nodup ∧
      (∀ key ∈ keys, s.contents key ≠ none) ∧
      s'.contents = fun key => if key ∈ keys then none else s.contents key := by
  rw [purgeOlderThan, records] at hp
  rcases hl : exec list s with ⟨e | metas, s₁⟩
  · obtain ⟨-, hcontents⟩ := exec_list hl
    have hfails : exec (lifted list) s = (.error (.store e), s₁) := by
      rw [exec_lifted, hl]
      rfl
    rw [exec_bind_error hfails] at hp
    cases hp
    exact ⟨[], .inr ⟨rfl, _, rfl⟩, .nil, by simp, by simpa using hcontents⟩
  · obtain ⟨-, hcontents⟩ := exec_list hl
    have hlisted : exec (lifted list) s = (.ok metas, s₁) := by
      rw [exec_lifted, hl]
      rfl
    obtain ⟨keys, s₂, hpurge, hall⟩ :=
      exec_purge_of_deletes (h.moves (keeps_list.at hl)) cutoff metas
    rw [exec_bind_ok hlisted, exec_lifted, hpurge] at hp
    cases hp
    rw [hcontents] at hall
    exact ⟨keys, .inl rfl, hall⟩

end Store

namespace Op

variable {σ ι ω α β : Type} {s : Surroundings σ ι ω} {key : Key} {w w' : World σ ω}

/-- `Store.Moves` is a relation as `Op.Allows` asks for, whatever changes in memory. -/
theorem allows_moves (changes : Cache σ → Cache σ → Prop) :
    Allows (fun w w' : World σ ω => w.store.Moves w'.store) changes where
  refl _ := .refl
  trans h h' := Store.lasting_moves.trans h h'
  aside h := by rw [h.store]; exact .refl
  store h := h
  cache _ _ _ := .refl

/-- Over a store that `Serves`, `op` fails with no error of the store, and leaves a store that
`Serves`. -/
def Steady (op : Op σ ω α) : Prop :=
  ∀ w, w.store.Serves → (exec op w).2.store.Serves ∧ ∀ e, (exec op w).1 ≠ .error (.store e)

namespace Steady

theorem pure (a : α) : Steady (Pure.pure a : Op σ ω α) := fun _ h => ⟨h, nofun⟩

theorem throw {failure : CacheError} (hf : ∀ e, failure ≠ .store e) :
    Steady (MonadExcept.throw failure : Op σ ω α) :=
  fun _ h => ⟨h, fun e he => hf e (Except.error.inj he)⟩

theorem bind {op : Op σ ω α} {f : α → Op σ ω β} (hop : Steady op) (hf : ∀ a, Steady (f a)) :
    Steady (op >>= f) := by
  intro w hw
  obtain ⟨hserves, hne⟩ := hop w hw
  rw [exec_bind]
  rcases h : exec op w with ⟨e | a, w'⟩ <;> rw [h] at hserves hne
  · exact ⟨hserves, fun e' he => hne e' (congrArg Except.error (Except.error.inj he))⟩
  · exact hf a w' hserves

/-- `attempt op` followed by `f` is `Steady` if `op` is and `f` is for each answer that is no error
of the store. -/
theorem attempt_bind {op : Op σ ω α} {f : Except CacheError α → Op σ ω β} (hop : Steady op)
    (hf : ∀ r, (∀ e, r ≠ .error (.store e)) → Steady (f r)) : Steady (attempt op >>= f) := by
  intro w hw
  obtain ⟨hserves, hne⟩ := hop w hw
  rw [exec_bind_ok (exec_attempt op w)]
  exact hf _ hne _ hserves

theorem at_store {op : Op σ ω α} (hop : Steady op) (hw : w.store.Serves) {r : Except CacheError α}
    (h : exec op w = (r, w')) (e : StoreError) : r ≠ .error (.store e) := by
  have hne := (hop w hw).2 e
  rwa [h] at hne

/-! ## Pieces -/

theorem read : Steady (Op.cache : Op σ ω (Cache σ)) := fun _ h => ⟨h, nofun⟩

theorem now : Steady (Op.now : Op σ ω Instant) := fun _ h => ⟨h, nofun⟩

theorem lock : Steady (Op.lock s : Op σ ω Instant) := fun _ h => ⟨h, nofun⟩

theorem modify (f : Cache σ → Cache σ) : Steady (modifyCache f : Op σ ω Unit) :=
  fun _ h => ⟨h, nofun⟩

theorem unlink (key : Key) : Steady (Op.unlink key : Op σ ω Unit) := fun _ h => ⟨h, nofun⟩

theorem linkPlaceholder (key : Key) : Steady (Op.linkPlaceholder key : Op σ ω Unit) :=
  fun _ h => ⟨h, nofun⟩

theorem step (stage : Stage) (event : Event) : Steady (Op.step stage event : Op σ ω Stage) := by
  unfold Op.step
  split
  · exact .pure _
  · exact .throw nofun

theorem fire (hs : s.Discreet) (phase : Phase) (key : Key) (state : Option σ) :
    Steady (s.lifecycle.fire phase key state) := by
  intro w hw
  rcases h : exec (s.lifecycle.fire phase key state) w with ⟨r, w'⟩
  obtain ⟨haside, ⟨message, rfl, -⟩ | ⟨after, rfl, -⟩⟩ := exec_fire hs h
  · exact ⟨haside.store ▸ hw, nofun⟩
  · exact ⟨haside.store ▸ hw, nofun⟩

theorem onStore {action : SessionStoreM α} (hkeeps : Keeps Store.Moves action)
    (hne : ∀ store : Store, store.Serves → ∀ e, (exec action store).1 ≠ .error (.store e)) :
    Steady (Op.onStore action : Op σ ω α) := by
  intro w hw
  rw [exec_onStore]
  exact ⟨hw.moves (hkeeps w.store), hne w.store hw⟩

theorem removeRecord (key : Key) : Steady (Op.onStore (Store.remove key) : Op σ ω Bool) := by
  refine onStore (Store.keeps_remove key) fun store hs e => ?_
  obtain ⟨-, ⟨found, hdelete⟩, -⟩ := hs store .refl key
  rw [Store.remove, Store.exec_lifted, hdelete]
  simp [Except.mapError]

theorem readRecord (codec : Codec σ) (key : Key) :
    Steady (Op.onStore (Store.activate codec key) : Op σ ω σ) := by
  refine onStore (Store.keeps_activate codec key) fun store hs e => ?_
  obtain ⟨⟨bytes?, hget⟩, -⟩ := hs store .refl key
  rcases hread : exec (Store.get key) store with ⟨r, store₁⟩
  rw [hread] at hget
  obtain rfl := hget
  have hlifted : exec (Store.lifted (Store.get key)) store = (.ok bytes?, store₁) := by
    rw [Store.exec_lifted, hread]
    rfl
  cases bytes? with
  | none =>
    have hnone : exec (Store.bytesOf key) store = (.error (.notFound key), store₁) := by
      rw [Store.bytesOf, exec_bind_ok hlifted]
      rfl
    rw [Store.activate, exec_bind_error hnone]
    simp
  | some bytes =>
    have hsome : exec (Store.bytesOf key) store = (.ok bytes, store₁) := by
      rw [Store.bytesOf, exec_bind_ok hlifted]
      rfl
    rw [Store.activate, exec_bind_ok hsome]
    cases Store.stateOf codec key bytes with
    | ok state => simp
    | error fault =>
      obtain ⟨-, ⟨found, hdelete⟩, -⟩ := hs store₁ ((Store.keeps_get key).at hread) key
      have hdeleted : exec (Store.lifted (Store.delete key)) store₁ =
          (.ok found, (exec (Store.delete key) store₁).2) := by
        rw [Store.exec_lifted, hdelete]
        rfl
      dsimp only
      rw [exec_bind_ok hdeleted]
      simp

theorem abandon {failure : CacheError} (hf : ∀ e, failure ≠ .store e) :
    Steady (Op.abandon key failure : Op σ ω α) := bind (unlink key) fun _ => throw hf

/-- The error of an attempt is no error of the store. -/
theorem error_ne {failure : CacheError}
    (h : ∀ e, (.error failure : Except CacheError α) ≠ .error (.store e)) (e : StoreError) :
    failure ≠ .store e := fun he => h e (congrArg _ he)

theorem discardRecord (key : Key) : Steady (Op.discardRecord key : Op σ ω Unit) :=
  attempt_bind (removeRecord key) fun _ _ => modify _

theorem forceRemove (key : Key) : Steady (Op.forceRemove key : Op σ ω Unit) :=
  bind (unlink key) fun _ => discardRecord key

/-! ## Operations -/

theorem checkOut (hs : s.Discreet) : Steady (Op.checkOut s key) := by
  refine bind read fun c => ?_
  split
  · exact throw nofun
  · refine bind (step _ _) fun next => ?_
    split
    · exact throw nofun
    · refine bind (modify _) fun _ => attempt_bind (fire hs _ _ _) fun fired hfired => ?_
      cases fired with
      | error failure => exact bind (forceRemove key) fun _ => throw (error_ne hfired)
      | ok after =>
        exact bind now fun t => bind (modify _) fun _ => bind lock fun since =>
          bind (modify _) fun _ => pure _

theorem welcome (hs : s.Discreet) (state : σ) : Steady (Op.welcome s key state) := by
  refine attempt_bind (fire hs _ _ _) fun fired hfired => ?_
  cases fired with
  | error failure => exact bind (discardRecord key) fun _ => throw (error_ne hfired)
  | ok after => exact bind (removeRecord key) fun _ => pure _

theorem load (hs : s.Discreet) : Steady (Op.load s key) := by
  refine attempt_bind (fire hs _ _ _) fun fired hfired => ?_
  cases fired with
  | error failure => exact bind (discardRecord key) fun _ => throw (error_ne hfired)
  | ok after => exact bind (readRecord s.codec key) fun state => welcome hs state

theorem settle (hs : s.Discreet) : Steady (Op.settle s key) := by
  refine bind (step _ _) fun next => bind (modify _) fun _ =>
    attempt_bind (load hs) fun loaded hloaded => ?_
  cases loaded with
  | error failure =>
    have habandon : Steady (Op.abandon key failure : Op σ ω Unit) := abandon (error_ne hloaded)
    cases failure with
    | deserialization k fault => exact bind (modify _) fun _ => habandon
    | _ => exact habandon
  | ok state =>
    exact bind now fun t => bind (modify _) fun _ => bind lock fun since =>
      bind (modify _) fun _ => modify _

theorem destroy (hs : s.Discreet) (state : Option σ) : Steady (Op.destroy s key state) := by
  refine attempt_bind (fire hs _ _ _) fun hook hhook =>
    bind (unlink key) fun _ => bind (modify _) fun _ => ?_
  cases hook with
  | error failure => exact throw (error_ne hhook)
  | ok _ => exact pure _

theorem removePassivated (hs : s.Discreet) : Steady (Op.removePassivated s key) := by
  refine bind (linkPlaceholder key) fun _ =>
    attempt_bind (readRecord s.codec key) fun answer hanswer => ?_
  split
  · refine attempt_bind (fire hs _ _ _) fun hook hhook =>
      attempt_bind (removeRecord key) fun deleted hdeleted => ?_
    cases deleted with
    | error failure => exact abandon (error_ne hdeleted)
    | ok found =>
      refine bind (unlink key) fun _ => bind (modify _) fun _ => ?_
      cases hook with
      | error failure => exact throw (error_ne hhook)
      | ok _ => exact pure _
  · exact unlink key
  · exact bind (unlink key) fun _ => modify _
  · exact abandon (error_ne hanswer)

theorem remove (hs : s.Discreet) : Steady (Op.remove s key) := by
  unfold Op.remove
  induction s.patience with
  | zero => exact throw nofun
  | succ looks ih =>
    refine bind read fun c => ?_
    split
    · exact removePassivated hs
    · split
      · exact throw nofun
      · split
        · exact bind (step _ _) fun _ => bind (modify _) fun _ => destroy hs _
        · exact modify _
        · exact pure _
        · exact ih
        · exact ih

end Steady

end Op

/-! ## Steps -/

section

variable {σ ι ω : Type} {s : Surroundings σ ι ω} {t t' : Traffic σ ι ω} {w w' : World σ ω}
  {event : Traffic.Event σ ι} {events : List (Traffic.Event σ ι)}

open Op

theorem Op.expirePassivated_moves {r : Except CacheError Nat}
    (h : exec (expirePassivated s) w = (r, w')) : w.store.Moves w'.store := by
  have hR := allows_moves (σ := σ) (ω := ω) fun _ _ => True
  have hkeeps : Keeps (fun w w' : World σ ω => w.store.Moves w'.store) (expirePassivated s) := by
    unfold expirePassivated
    split
    · exact hR.pure _
    · exact hR.bind hR.now fun now => hR.bind (hR.onStore (Store.keeps_purgeOlderThan _)) fun _ =>
        hR.bind (hR.modify fun _ => trivial) fun _ => hR.pure _
  exact hkeeps.at h

theorem Op.introduce_moves (hs : s.Discreet) {args : ι} {r : Except CacheError Key}
    (h : exec (introduce s args) w = (r, w')) : w.store.Moves w'.store := by
  have hR := allows_moves (σ := σ) (ω := ω) fun _ _ => True
  have hgive : Keeps (fun w w' : World σ ω => w.store.Moves w'.store) (giveBack : Op σ ω Unit) :=
    fun _ => .refl
  have hkeeps : Keeps (fun w w' : World σ ω => w.store.Moves w'.store) (introduce s args) := by
    refine hR.bind (hR.lift hs.freshKey) fun key => hR.bind (hR.attempt (hR.bind (hR.step _ _)
      fun _ => hR.bind (hR.construct hs key args) fun _ => hR.pure _)) fun made => ?_
    cases made with
    | error failure => exact hR.bind hgive fun _ => hR.throw _
    | ok made => exact fun _ => .refl
  exact hkeeps.at h

/-- Each step but `Step.tamper` changes the store by `Store.Moves`. -/
theorem Step.moves (hs : s.Discreet) (hx : Sound s t.scene) (h : Step s t event t')
    (hu : event ≠ .tampered) : t.world.store.Moves t'.world.store :=
  h.keeps (R := fun w w' => w.store.Moves w'.store) (fun _ => allows_moves _) hs hx hu
    (fun _ => expirePassivated_moves) fun _ => introduce_moves hs

theorem Run.moves {events : List (Traffic.Event σ ι)} (hs : s.Discreet) (hx : Sound s t.scene)
    (h : Run s t events t') (hu : Undisturbed events) : t.world.store.Moves t'.world.store := by
  suffices hrun : Sound s t'.scene ∧ t.world.store.Moves t'.world.store from hrun.2
  induction h with
  | nil => exact ⟨hx, .refl⟩
  | snoc _ hstep ih =>
    obtain ⟨hx', hmoves⟩ := ih fun h => hu (List.mem_append_left _ h)
    exact ⟨hstep.sound hs hx',
      Store.lasting_moves.trans hmoves (hstep.moves hs hx' fun he => hu (by simp [he]))⟩

end

end SessionCache
