import SessionCache.Proofs.Traffic.Handling

/-!
# What operations keep

An operation is put together from a few pieces: callbacks, calls of the store, and changes of the
memory of the cache. What all pieces keep, the operation keeps, however it ends. `Keeps` says so of
a relation between the state before and the state after, and there is one lemma for each operation.

The operations on a key differ in how they change the memory, so there are two kinds of relations:

* `Op.Harmless`: for operations that take a session out of memory, or only look. They leave the
  order of the slots alone (`Cache.Tame`).
* `Op.Local`: for operations that hand a session out, or take it back, too. They leave the slots of
  other keys alone and what `Usage` tracks of them, and count neither new sessions nor expired
  records (`Cache.Within`).

`Request.keeps` and `Step.keeps` put the operations together: what all of them keep, every step keeps.
-/

namespace SessionCache

/-! ## Relations that computations keep -/

section Keeps

variable {ε ε' S α β : Type} {R : S → S → Prop}

/-- Whatever `m` answers, the state before and the state it leaves are in `R`. -/
def Keeps (R : S → S → Prop) (m : ExceptT ε (StateM S) α) : Prop := ∀ x, R x (exec m x).2

/-- `R` is reflexive and transitive. -/
structure Lasting (R : S → S → Prop) : Prop where
  refl : ∀ x, R x x
  trans : ∀ {x y z}, R x y → R y z → R x z

namespace Lasting

theorem pure (hR : Lasting R) (a : α) : Keeps R (Pure.pure a : ExceptT ε (StateM S) α) :=
  fun x => hR.refl x

theorem throw (hR : Lasting R) (e : ε) :
    Keeps R (MonadExcept.throw e : ExceptT ε (StateM S) α) := fun x => hR.refl x

theorem bind (hR : Lasting R) {m : ExceptT ε (StateM S) α} {f : α → ExceptT ε (StateM S) β}
    (hm : Keeps R m) (hf : ∀ a, Keeps R (f a)) : Keeps R (m >>= f) := by
  intro x
  have hx := hm x
  rw [exec_bind]
  rcases h : exec m x with ⟨e | a, y⟩ <;> rw [h] at hx
  · exact hx
  · exact hR.trans hx (hf a y)

end Lasting

/-- `Keeps` for one run of `m`. -/
theorem Keeps.at {m : ExceptT ε (StateM S) α} (hm : Keeps R m) {x y : S} {r : Except ε α}
    (h : exec m x = (r, y)) : R x y := by
  have hx := hm x
  rwa [h] at hx

end Keeps

/-! ## Stores -/

namespace Store

/-- `s'` is what some sequence of calls of `Store.put` and `Store.delete`, and of calls that only
read, makes of `s`. -/
inductive Moves (s : Store) : Store → Prop where
  | refl : Moves s s
  | look {s' : Store} (h : Moves s s') : Moves s (s'.called s'.backend)
  | put {s' : Store} (h : Moves s s') (now : Instant) (key : Key) (bytes : ByteArray) :
      Moves s (s'.called (s'.backend.put now key bytes).2)
  | delete {s' : Store} (h : Moves s s') (key : Key) :
      Moves s (s'.called (s'.backend.delete key).2)

theorem lasting_moves : Lasting Moves where
  refl _ := .refl
  trans h h' := by
    induction h' with
    | refl => exact h
    | look _ ih => exact ih.look
    | put _ now key bytes ih => exact ih.put now key bytes
    | delete _ key ih => exact ih.delete key

theorem keeps_put (now : Instant) (key : Key) (bytes : ByteArray) :
    Keeps Moves (put now key bytes) := by
  intro s
  rw [exec_put]
  split
  · exact .look .refl
  · exact .put .refl now key bytes

theorem keeps_get (key : Key) : Keeps Moves (get key) := by
  intro s
  rw [exec_get]
  split <;> exact .look .refl

theorem keeps_delete (key : Key) : Keeps Moves (delete key) := by
  intro s
  rw [exec_delete]
  split
  · exact .look .refl
  · exact .delete .refl key

theorem keeps_pass (call : StoreCall) : Keeps Moves (pass call) := by
  intro s
  rw [exec_pass]
  split <;> exact .look .refl

theorem keeps_reply {α : Type} (result : Except StoreError α) : Keeps Moves (reply result) := by
  cases result
  · exact lasting_moves.throw _
  · exact lasting_moves.pure _

theorem keeps_contains (key : Key) : Keeps Moves (contains key) := by
  refine lasting_moves.bind (fun s => .refl) fun s => ?_
  split
  · exact lasting_moves.bind (keeps_get key) fun _ => lasting_moves.pure _
  · exact lasting_moves.bind (keeps_pass _) fun _ =>
      lasting_moves.bind (fun s => .refl) fun _ => keeps_reply _

theorem keeps_list : Keeps Moves list :=
  lasting_moves.bind (keeps_pass _) fun _ => lasting_moves.bind (fun _ => .refl) fun _ =>
    lasting_moves.bind (keeps_reply _) fun _ => lasting_moves.pure _

theorem keeps_lifted {α : Type} {action : StoreM α} (h : Keeps Moves action) :
    Keeps Moves (lifted action) := fun s => by
  rw [exec_lifted]
  exact h s

/-- `Store.purge` keeps what `Store.delete` keeps. -/
theorem keeps_purge_of_delete {R : Store → Store → Prop} (hR : Lasting R) (hdelete : ∀ key, Keeps R (delete key))
    (cutoff : Instant) (metas : List RecordMeta) : Keeps R (purge cutoff metas) := by
  induction metas with
  | nil => exact hR.pure _
  | cons m rest ih =>
    have hlater : ∀ purged : Bool, Keeps R (do
        let others ← purge cutoff rest
        return if purged then m.key :: others else others) := fun purged =>
      hR.bind ih fun _ => hR.pure _
    unfold purge
    split
    · exact hR.bind (hdelete _) hlater
    · exact hlater false

theorem keeps_purge (cutoff : Instant) (metas : List RecordMeta) :
    Keeps Moves (purge cutoff metas) := keeps_purge_of_delete lasting_moves keeps_delete cutoff metas

variable {σ : Type}

theorem keeps_passivate (codec : Codec σ) (now : Instant) (key : Key) (state : σ) :
    Keeps Moves (passivate codec now key state) := by
  unfold passivate
  split
  · exact lasting_moves.throw _
  · exact keeps_lifted (keeps_put _ _ _)

theorem keeps_bytesOf (key : Key) : Keeps Moves (bytesOf key) := by
  refine lasting_moves.bind (keeps_lifted (keeps_get key)) fun bytes => ?_
  cases bytes
  · exact lasting_moves.throw _
  · exact lasting_moves.pure _

theorem keeps_activate (codec : Codec σ) (key : Key) : Keeps Moves (activate codec key) := by
  refine lasting_moves.bind (keeps_bytesOf key) fun bytes => ?_
  split
  · exact lasting_moves.pure _
  · exact lasting_moves.bind (keeps_lifted (keeps_delete key)) fun _ => lasting_moves.throw _

theorem keeps_inspect (key : Key) : Keeps Moves (inspect key) := by
  refine lasting_moves.bind (keeps_bytesOf key) fun bytes => ?_
  split
  · exact lasting_moves.pure _
  · exact lasting_moves.throw _

theorem keeps_remove (key : Key) : Keeps Moves (remove key) := keeps_lifted (keeps_delete key)

theorem keeps_holds (key : Key) : Keeps Moves (holds key) := keeps_lifted (keeps_contains key)

theorem keeps_purgeOlderThan (cutoff : Instant) : Keeps Moves (purgeOlderThan cutoff) :=
  lasting_moves.bind (keeps_lifted keeps_list) fun _ => keeps_lifted (keeps_purge _ _)

end Store

/-! ## Memory -/

namespace Cache

variable {σ : Type}

/-- `created` and `expired` are the same in both. -/
def SameTally (c c' : Cache σ) : Prop :=
  c'.counters.created = c.counters.created ∧ c'.counters.expired = c.counters.expired

/-- From `c` to `c'`, the `slots` of keys other than `key` are as they were and in the same order,
what `usage` tracks of them is the same, and so are `created` and `expired`. -/
structure Within (key : Key) (c c' : Cache σ) : Prop where
  others : c'.slots.filter (·.1 ≠ key) = c.slots.filter (·.1 ≠ key)
  tracked : ∀ other, other ≠ key → c'.usage.find? other = c.usage.find? other
  tally : SameTally c c'

/-- A change of one kind: of counters, of `occupied`, or of the slot of `key` that keeps `stage` and
`lastAccess`, takes it away, or puts one there that is not ready. -/
inductive Tame (key : Key) (c : Cache σ) : Cache σ → Prop where
  | counters (counters : Counters) (h : SameTally c { c with counters }) :
      Tame key c { c with counters }
  | occupied (n : Int) : Tame key c { c with occupied := n }
  | unlink : Tame key c (c.unlink key)
  | place (slot : Slot σ) (h : slot.stage ≠ .ready) : Tame key c (c.link key slot)
  | change (f : Slot σ → Slot σ)
      (hf : ∀ slot, (f slot).stage = slot.stage ∧ (f slot).lastAccess = slot.lastAccess) :
      Tame key c (c.update key f)

variable {key : Key} {c c' c'' : Cache σ}

theorem Within.refl (c : Cache σ) : Within key c c := ⟨rfl, fun _ _ => rfl, rfl, rfl⟩

theorem Within.trans (h : Within key c c') (h' : Within key c' c'') : Within key c c'' :=
  ⟨h'.others.trans h.others, fun other ho => (h'.tracked other ho).trans (h.tracked other ho),
    h'.tally.1.trans h.tally.1, h'.tally.2.trans h.tally.2⟩

theorem filter_filter_ne (slots : List (Key × Slot σ)) :
    (slots.filter (·.1 ≠ key)).filter (·.1 ≠ key) = slots.filter (·.1 ≠ key) :=
  List.filter_eq_self.mpr fun _ h => (List.mem_filter.mp h).2

theorem within_unlink (c : Cache σ) : Within key c (c.unlink key) :=
  ⟨filter_filter_ne _, fun other ho => (Usage.find?_forget _ _ other).trans (if_neg ho), rfl, rfl⟩

theorem within_link (c : Cache σ) (slot : Slot σ) : Within key c (c.link key slot) :=
  ⟨(List.filter_cons_of_neg (by simp)).trans (filter_filter_ne _), fun _ _ => rfl, rfl, rfl⟩

theorem within_update (key : Key) (c : Cache σ) (f : Slot σ → Slot σ) : Within key c (c.update key f) :=
  ⟨filter_map_change _ _ _, fun _ _ => rfl, rfl, rfl⟩

theorem within_promote (c : Cache σ) : Within key c (c.promote key) := by
  unfold promote
  split
  · exact within_link c _
  · exact .refl c

theorem Tame.within (h : Tame key c c') : Within key c c' := by
  cases h with
  | counters _ h => exact ⟨rfl, fun _ _ => rfl, h⟩
  | occupied => exact ⟨rfl, fun _ _ => rfl, rfl, rfl⟩
  | unlink => exact within_unlink c
  | place slot => exact within_link c slot
  | change f => exact within_update _ c f

/-- `Within key` keeps the slots of other keys. -/
theorem Within.slot? (h : Within key c c') {other : Key} (hne : other ≠ key) :
    c'.slot? other = c.slot? other := by
  have hlookup : ∀ d : Cache σ, (d.slots.filter (·.1 ≠ key)).lookup other = d.slot? other := fun d =>
    (Assoc.lookup_filter_ne d.slots key other).trans (if_neg hne)
  rw [← hlookup c', h.others, hlookup c]

end Cache

namespace Op

variable {σ ι ω α : Type} {s : Surroundings σ ι ω} {R : World σ ω → World σ ω → Prop}

/-- `R` is reflexive and transitive, and holds of each change by callbacks (`Aside`), by calls of
the backend (`Store.Moves`), and of the cache by `changes`. -/
structure Allows (R : World σ ω → World σ ω → Prop) (changes : Cache σ → Cache σ → Prop) : Prop
    extends Lasting R where
  aside : ∀ {w w'}, Aside w w' → R w w'
  store : ∀ {w store}, w.store.Moves store → R w { w with store }
  cache : ∀ {w c}, changes w.cache c → ∀ signals stays, R w { w with cache := c, signals, stays }

/-- `R` allows the changes of the cache that are `Tame`. -/
abbrev Harmless (key : Key) (R : World σ ω → World σ ω → Prop) : Prop := Allows R (Cache.Tame key)

/-- `R` allows the changes of the cache that are `Within key`. -/
abbrev Local (key : Key) (R : World σ ω → World σ ω → Prop) : Prop := Allows R (Cache.Within key)

theorem Local.harmless {key : Key} (hR : Local key R) : Harmless key R :=
  { hR with cache := fun h => hR.cache h.within }

namespace Allows

variable {changes : Cache σ → Cache σ → Prop}

theorem attempt (_ : Allows R changes) {op : Op σ ω α} (h : Keeps R op) :
    Keeps R (Op.attempt op) := h

theorem read (hR : Allows R changes) : Keeps R (Op.cache : Op σ ω (Cache σ)) := fun w => hR.refl w

theorem now (hR : Allows R changes) : Keeps R (Op.now : Op σ ω Instant) := fun w => hR.refl w

theorem lock (hR : Allows R changes) (hs : s.Discreet) : Keeps R (Op.lock s : Op σ ω Instant) :=
  fun w => hR.aside (hs.lock w)

theorem step (hR : Allows R changes) (stage : Stage) (event : Event) :
    Keeps R (Op.step stage event : Op σ ω Stage) := by
  unfold Op.step
  split
  · exact hR.pure _
  · exact hR.throw _

theorem modify (hR : Allows R changes) {f : Cache σ → Cache σ} (h : ∀ c, changes c (f c)) :
    Keeps R (modifyCache f : Op σ ω Unit) := fun w => hR.cache (h w.cache) w.signals w.stays

theorem onStore (hR : Allows R changes) {action : SessionStoreM α}
    (h : Keeps Store.Moves action) : Keeps R (Op.onStore action : Op σ ω α) := by
  intro w
  rw [exec_onStore]
  exact hR.store (h w.store)

theorem lift (hR : Allows R changes) {action : Act σ ω α}
    (h : ∀ w, Aside w (action.run w).2) : Keeps R (ExceptT.lift action : Op σ ω α) :=
  fun w => hR.aside (h w)

theorem fire (hR : Allows R changes) (hs : s.Discreet) (phase : Phase) (key : Key)
    (state : Option σ) : Keeps R (s.lifecycle.fire phase key state) := fun _ =>
  hR.aside (exec_fire hs rfl).1

theorem construct (hR : Allows R changes) (hs : s.Discreet) (key : Key) (args : ι) :
    Keeps R (Op.construct s key args) := fun _ => hR.aside (exec_construct hs rfl).1

end Allows

/-! ## Operations that take sessions out of memory -/

namespace Harmless

variable {key : Key}

theorem unlink (hR : Harmless key R) : Keeps R (Op.unlink key : Op σ ω Unit) := fun w =>
  hR.cache .unlink (w.signals + 1) w.stays

theorem abandon (hR : Harmless key R) (failure : CacheError) :
    Keeps R (Op.abandon key failure : Op σ ω α) :=
  hR.bind (Harmless.unlink hR) fun _ => hR.throw failure

theorem linkPlaceholder (hR : Harmless key R) :
    Keeps R (Op.linkPlaceholder key : Op σ ω Unit) :=
  hR.bind hR.now fun _ w => 
    hR.cache (.place _ (show Stage.passivated ≠ .ready from nofun)) w.signals (w.stays + 1)

theorem discardRecord (hR : Harmless key R) :
    Keeps R (Op.discardRecord key : Op σ ω Unit) :=
  hR.bind (hR.attempt (hR.onStore (Store.keeps_remove key))) fun _ =>
    hR.modify fun _ => .counters _ ⟨rfl, rfl⟩

theorem forceRemove (hR : Harmless key R) : Keeps R (Op.forceRemove key : Op σ ω Unit) :=
  hR.bind (Harmless.unlink hR) fun _ => Harmless.discardRecord hR

theorem takeBack (hR : Harmless key R) (hs : s.Discreet) (state : σ)
    (failure : CacheError) : Keeps R (Op.takeBack s key state failure) := by
  refine hR.bind (hR.modify fun _ => .counters _ ⟨rfl, rfl⟩) fun _ =>
    hR.bind (hR.attempt (hR.fire hs _ _ _)) fun undone => ?_
  cases undone with
  | error undoing => exact hR.bind (Harmless.forceRemove hR) fun _ => hR.throw _
  | ok after =>
    exact hR.bind (hR.modify fun _ => .change _ fun _ => ⟨rfl, rfl⟩) fun _ => hR.throw _

theorem seeOff (hR : Harmless key R) (hs : s.Discreet) : Keeps R (Op.seeOff s key) := by
  refine hR.bind (hR.attempt (hR.fire hs _ _ _)) fun fired => ?_
  cases fired with
  | error failure => exact hR.bind (Harmless.discardRecord hR) fun _ => hR.throw _
  | ok _ => exact hR.pure _

theorem moveOut (hR : Harmless key R) (hs : s.Discreet) : Keeps R (Op.moveOut s key) :=
  hR.bind (Harmless.unlink hR) fun _ => hR.bind (hR.modify fun _ => .counters _ ⟨rfl, rfl⟩) fun _ =>
    Harmless.seeOff hR hs

theorem passivate (hR : Harmless key R) (hs : s.Discreet) :
    Keeps R (Op.passivate s key) := by
  refine hR.bind hR.read fun c => ?_
  split
  · exact hR.throw _
  · refine hR.bind (hR.step _ _) fun _ => ?_
    split
    · exact hR.throw _
    · refine hR.bind (hR.modify fun _ => .change _ fun _ => ⟨rfl, rfl⟩) fun _ =>
        hR.bind (hR.attempt (hR.fire hs _ _ _)) fun fired => ?_
      cases fired with
      | error failure => exact hR.bind (Harmless.forceRemove hR) fun _ => hR.throw _
      | ok after =>
        refine hR.bind hR.now fun now =>
          hR.bind (hR.attempt (hR.onStore (Store.keeps_passivate _ _ _ _))) fun written => ?_
        cases written with
        | error failure => exact Harmless.takeBack hR hs _ _
        | ok _ => exact Harmless.moveOut hR hs

theorem announce (hR : Harmless key R) : Keeps R (Op.announce key : Op σ ω Unit) := by
  refine hR.bind (Harmless.linkPlaceholder hR) fun _ =>
    hR.bind (hR.attempt (hR.onStore (Store.keeps_holds key))) fun answer => ?_
  rcases answer with failure | _ | _
  · exact Harmless.abandon hR _
  · exact Harmless.abandon hR _
  · exact hR.pure _

theorem withdraw (hR : ∀ key, Harmless key R) (failure : CacheError) (task : Task ι) :
    Keeps R (task.withdraw failure : Op σ ω Unit) := by
  cases task with
  | fetching key | settling key => exact Harmless.abandon (hR key) failure
  | creating | introducing => exact (hR (.ofNat 0)).throw failure

theorem destroy (hR : Harmless key R) (hs : s.Discreet) (state : Option σ) :
    Keeps R (Op.destroy s key state) := by
  refine hR.bind (hR.attempt (hR.fire hs _ _ _)) fun hook =>
    hR.bind (Harmless.unlink hR) fun _ =>
      hR.bind (hR.modify fun _ => .counters _ ⟨rfl, rfl⟩) fun _ => ?_
  cases hook with
  | error failure => exact hR.throw _
  | ok _ => exact hR.pure _

theorem removeOnFinish (hR : Harmless key R) :
    Keeps R (Op.removeOnFinish key : Op σ ω Unit) :=
  hR.modify fun _ => .change _ fun _ => ⟨rfl, rfl⟩

theorem removePassivated (hR : Harmless key R) (hs : s.Discreet) :
    Keeps R (Op.removePassivated s key) := by
  refine hR.bind (Harmless.linkPlaceholder hR) fun _ =>
    hR.bind (hR.attempt (hR.onStore (Store.keeps_activate _ key))) fun answer => ?_
  split
  · refine hR.bind (hR.attempt (hR.fire hs _ _ _)) fun hook =>
      hR.bind (hR.attempt (hR.onStore (Store.keeps_remove key))) fun deleted => ?_
    cases deleted with
    | error failure => exact Harmless.abandon hR _
    | ok found =>
      refine hR.bind (Harmless.unlink hR) fun _ =>
        hR.bind (hR.modify fun _ => .counters _ ⟨rfl, rfl⟩) fun _ => ?_
      cases hook with
      | error failure => exact hR.throw _
      | ok _ => exact hR.pure _
  · exact Harmless.unlink hR
  · exact hR.bind (Harmless.unlink hR) fun _ => hR.modify fun _ => .counters _ ⟨rfl, rfl⟩
  · exact Harmless.abandon hR _

theorem remove (hR : Harmless key R) (hs : s.Discreet) : Keeps R (Op.remove s key) := by
  unfold Op.remove
  induction s.patience with
  | zero => exact hR.throw _
  | succ looks ih =>
    refine hR.bind hR.read fun c => ?_
    split
    · exact Harmless.removePassivated hR hs
    · split
      · exact hR.throw _
      · split
        · exact hR.bind (hR.step _ _) fun _ =>
            hR.bind (hR.modify fun _ => .change _ fun _ => ⟨rfl, rfl⟩) fun _ =>
              Harmless.destroy hR hs _
        · exact Harmless.removeOnFinish hR
        · exact hR.pure _
        · exact ih
        · exact ih

theorem peek (hR : Harmless key R) : Keeps R (Op.peek s key) := by
  refine hR.bind hR.read fun c => ?_
  split
  · split
    · exact hR.throw _
    · exact hR.bind hR.now fun _ => hR.pure _
  · refine hR.bind (hR.attempt (hR.onStore (Store.keeps_inspect key))) fun answer => ?_
    split
    · exact hR.pure _
    · exact hR.pure _
    · exact hR.throw _

theorem contains (hR : Harmless key R) : Keeps R (Op.contains key : Op σ ω Bool) := by
  refine hR.bind hR.read fun c => ?_
  split
  · exact hR.pure _
  · exact hR.onStore (Store.keeps_holds key)

end Harmless

/-! ## Operations that hand sessions out, and take them back -/

namespace Local

variable {key : Key}

theorem markIdle (hR : Local key R) (now : Instant) :
    Keeps R (Op.modifyUsage (·.markIdle now key) : Op σ ω Unit) :=
  hR.modify fun _ =>
    ⟨rfl, fun other ho => (Usage.find?_markIdle _ _ _ other).trans (if_neg ho), rfl, rfl⟩

theorem markInUse (hR : Local key R) (now : Instant) :
    Keeps R (Op.modifyUsage (·.markInUse now key) : Op σ ω Unit) :=
  hR.modify fun _ => ⟨rfl, fun _ ho => Usage.find?_markInUse_of_ne _ _ ho, rfl, rfl⟩

theorem checkOut (hR : Local key R) (hs : s.Discreet) : Keeps R (Op.checkOut s key) := by
  refine hR.bind hR.read fun c => ?_
  split
  · exact hR.throw _
  · refine hR.bind (hR.step _ _) fun next => ?_
    split
    · exact hR.throw _
    · refine hR.bind (hR.modify fun c => Cache.within_update _ c _) fun _ =>
        hR.bind (hR.attempt (hR.fire hs _ _ _)) fun fired => ?_
      cases fired with
      | error failure =>
        exact hR.bind (Harmless.forceRemove hR.harmless) fun _ => hR.throw _
      | ok after =>
        exact hR.bind hR.now fun t => hR.bind (hR.modify fun c => Cache.within_update _ c _) fun _ =>
          hR.bind (hR.lock hs) fun since => hR.bind (Local.markInUse hR _) fun _ => hR.pure _

theorem welcome (hR : Local key R) (hs : s.Discreet) (state : σ) :
    Keeps R (Op.welcome s key state) := by
  refine hR.bind (hR.attempt (hR.fire hs _ _ _)) fun fired => ?_
  cases fired with
  | error failure => exact hR.bind (Harmless.discardRecord hR.harmless) fun _ => hR.throw _
  | ok after => exact hR.bind (hR.onStore (Store.keeps_remove key)) fun _ => hR.pure _

theorem load (hR : Local key R) (hs : s.Discreet) : Keeps R (Op.load s key) := by
  refine hR.bind (hR.attempt (hR.fire hs _ _ _)) fun fired => ?_
  cases fired with
  | error failure => exact hR.bind (Harmless.discardRecord hR.harmless) fun _ => hR.throw _
  | ok after =>
    exact hR.bind (hR.onStore (Store.keeps_activate _ key)) fun state => Local.welcome hR hs state

theorem settle (hR : Local key R) (hs : s.Discreet) : Keeps R (Op.settle s key) := by
  refine hR.bind (hR.step _ _) fun next =>
    hR.bind (hR.modify fun c => Cache.within_update _ c _) fun _ =>
      hR.bind (hR.attempt (Local.load hR hs)) fun loaded => ?_
  cases loaded with
  | error failure =>
    have habandon : Keeps R (Op.abandon key failure : Op σ ω Unit) :=
      Harmless.abandon hR.harmless failure
    cases failure with
    | deserialization k fault =>
      exact hR.bind (hR.modify fun _ => ⟨rfl, fun _ _ => rfl, rfl, rfl⟩) fun _ => habandon
    | _ => exact habandon
  | ok state =>
    exact hR.bind hR.now fun t => hR.bind (hR.modify fun c => Cache.within_update _ c _) fun _ =>
      hR.bind (hR.lock hs) fun since => hR.bind (Local.markIdle hR _) fun _ =>
        hR.modify fun _ => ⟨rfl, fun _ _ => rfl, rfl, rfl⟩

theorem regain (hR : Local key R) (hs : s.Discreet) (state : σ) (next : Stage) :
    Keeps R (Op.regain s key state next) := by
  refine hR.bind (hR.attempt (hR.fire hs _ _ _)) fun fired => ?_
  cases fired with
  | error failure => exact hR.bind (Harmless.forceRemove hR.harmless) fun _ => hR.throw _
  | ok after =>
    exact hR.bind hR.now fun t => hR.bind (hR.modify fun c => Cache.within_update _ c _) fun _ =>
      hR.bind (hR.lock hs) fun since => hR.bind (hR.modify fun c => Cache.within_promote _) fun _ =>
        hR.bind (Local.markIdle hR _) fun _ w => hR.cache (.refl _) (w.signals + 1) w.stays

theorem finish (hR : Local key R) (hs : s.Discreet) (state : σ) :
    Keeps R (Op.finish s key state) := by
  refine hR.bind hR.read fun c => ?_
  split
  · exact hR.throw _
  · split
    · exact hR.throw _
    · refine hR.bind (hR.step _ _) fun next =>
        hR.bind (hR.modify fun c => Cache.within_update _ c _) fun _ => ?_
      split
      · exact Harmless.destroy hR.harmless hs _
      · exact Local.regain hR hs state next

end Local

end Op

/-! ## Other keys -/

section

variable {σ ω : Type}

/-- `Cache.Within key` from `w.cache` to `w'.cache`. -/
def World.Spares (key : Key) (w w' : World σ ω) : Prop := Cache.Within key w.cache w'.cache

theorem local_spares (key : Key) : Op.Local key (World.Spares key (σ := σ) (ω := ω)) where
  refl w := .refl w.cache
  trans h h' := Cache.Within.trans h h'
  aside h := by rw [World.Spares, h.cache]; exact .refl _
  store {w _} _ := .refl w.cache
  cache h _ _ := h

end

/-! ## Steps -/

/-- The requests `sweep` and `expirePassivated`, which delete records for their age. -/
def Request.Ages {σ ι : Type} : Request σ ι → Prop
  | .sweep | .expirePassivated => True
  | _ => False

/-- The events that answer such requests. -/
def Traffic.Event.Ages {σ ι : Type} : Traffic.Event σ ι → Prop
  | .answered request _ => request.Ages
  | _ => False

section

variable {σ ι ω : Type} {s : Surroundings σ ι ω} {R : World σ ω → World σ ω → Prop}
  {t t' : Traffic σ ι ω} {w w' : World σ ω} {event : Traffic.Event σ ι}

open Op

theorem Op.Parade.keeps_all (hR : ∀ key, Harmless key R) (hs : s.Discreet) (h : Parade s w w') :
    R w w' :=
  h.keeps (P := fun w' => R w w') (fun {_ _ key _ _ _} _ _ hp hw =>
    (hR key).trans hw ((Harmless.passivate (hR key) hs).at hp)) ((hR (.ofNat 0)).refl w)

theorem Op.look_keeps (hR : ∀ key, Harmless key R) (hs : s.Discreet) {deadline : Deadline}
    {r : Except CacheError Look} (h : exec (look s deadline) w = (r, w')) : R w w' := by
  obtain ⟨-, -, rfl⟩ | ⟨-, victim, answer, -, hp, -⟩ | ⟨-, -, rfl, -⟩ := exec_look_cases h
  · exact (hR (.ofNat 0)).cache (.occupied _) w.signals w.stays
  · exact (Harmless.passivate (hR victim) hs).at hp
  · exact (hR (.ofNat 0)).refl _

/-- A `Plain` request keeps a relation that is `Harmless` for every key, if `Op.expirePassivated`
does where the request calls it. -/
theorem Request.keeps (hR : ∀ key, Harmless key R) (hs : s.Discreet) (hx : Sound s t.scene)
    {request : Request σ ι} (hexpire : request.Ages → ∀ {w w' : World σ ω} {r : Except CacheError Nat},
      exec (Op.expirePassivated s) w = (r, w') → R w w')
    (hq : request.Plain t) {answer : Except CacheError (Response σ)}
    (h : exec (request.perform s) t.world = (answer, w)) : R t.world w := by
  cases request with
  | create | get | finish => exact hq.elim
  | removeOnFinish key =>
    obtain ⟨r, hw, -⟩ := exec_bind_pure h
    exact (Harmless.removeOnFinish (hR key)).at hw
  | remove key =>
    obtain ⟨r, hw, -⟩ := exec_bind_pure h
    exact (Harmless.remove (hR key) hs).at hw
  | peek key =>
    obtain ⟨r, hw, -⟩ := exec_bind_pure h
    exact (Harmless.peek (hR key)).at hw
  | contains key =>
    obtain ⟨r, hw, -⟩ := exec_bind_pure h
    exact (Harmless.contains (hR key)).at hw
  | sweep =>
    obtain ⟨r, hw, -⟩ := exec_bind_pure h
    obtain ⟨-, w₁, answer', hparade, hold⟩ := exec_sweep_cases (d := t.toDesk) hs hx hw
    exact (hR (.ofNat 0)).trans (hparade.keeps_all hR hs) (hexpire trivial hold)
  | passivateAll =>
    obtain ⟨r, hw, -⟩ := exec_bind_pure h
    exact (exec_passivateAll (d := t.toDesk) hs hx hw).2.keeps_all hR hs
  | expirePassivated =>
    obtain ⟨r, hw, -⟩ := exec_bind_pure h
    exact hexpire trivial hw

/-- A step keeps a relation that is `Local` for every key, if `Op.expirePassivated` and
`Op.introduce` do where the step calls them. -/
theorem Step.keeps (hR : ∀ key, Local key R) (hs : s.Discreet) (hx : Sound s t.scene)
    (h : Step s t event t') (hu : event ≠ .tampered)
    (hexpire : event.Ages → ∀ {w w' : World σ ω} {r : Except CacheError Nat},
      exec (Op.expirePassivated s) w = (r, w') → R w w')
    (hintroduce : ∀ {args : ι} {r : Except CacheError Key} {w w' : World σ ω},
      event = .answered (.create args) (r.map .created) →
      exec (Op.introduce s args) w = (r, w') → R w w') : R t.world t'.world := by
  have hharmless : ∀ key, Harmless key R := fun key => (hR key).harmless
  cases h with
  | pass h hc => exact (hR (.ofNat 0)).aside ⟨rfl, rfl, h, fun _ => hc⟩
  | edit | create => exact (hR (.ofNat 0)).refl _
  | tamper => exact absurd rfl hu
  | serve hq hw => exact Request.keeps hharmless hs hx hexpire hq hw
  | finish _ hw => exact (Local.finish (hR _) hs _).at hw
  | @get key answer w hl hw =>
    obtain ⟨slot, hslot⟩ := Option.isSome_iff_exists.mp hl
    rw [Traffic.handed_world]
    obtain ⟨-, rfl⟩ | ⟨rfl, -⟩ | ⟨_, -, hw⟩ := exec_get_cases (d := t.toDesk) hx hslot hw
    · exact (hR key).refl _
    · exact (hR key).cache (Cache.within_promote _) t.world.signals t.world.stays
    · exact (hR key).trans ((hR key).cache (Cache.within_promote _) t.world.signals t.world.stays)
        ((Local.checkOut (hR key) hs).at hw)
  | miss _ hw | fetch _ hw => exact (Harmless.announce (hharmless _)).at hw
  | look _ _ hw => exact look_keeps hharmless hs hw
  | @fail task _ _ failure _ _ _ _ hw hw' =>
    exact (hR (.ofNat 0)).trans (look_keeps hharmless hs hw)
      ((Harmless.withdraw hharmless failure task).at hw')
  | @giveUp task _ _ _ _ _ hw => exact (Harmless.withdraw hharmless _ task).at hw
  | introduce _ _ hw => exact hintroduce rfl hw
  | @settle key _ answer w _ hw =>
    rw [Traffic.handed_world]
    exact ((hR key).bind (Local.settle (hR key) hs) fun _ => Local.checkOut (hR key) hs).at hw

end

end SessionCache
