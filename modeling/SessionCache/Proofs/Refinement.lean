import Mathlib.Logic.Basic
import SessionCache.Proofs.Automaton

/-!
# A cache is a map of sessions

Whatever a cache does to make room, callers see a plain map of sessions: a key has none, or an idle
one with its state, or one that is checked out. Where a session is, in memory or in the store, does
not matter to them, nor that calls of the backend fail; an operation that fails leaves the map as it
was. Where the map has what is asked for, an operation fails only for want of room, because another
one has to go on first, or with the backend.

* `Roster.Next`: what a request and its answer do to the map.
* `Entry.Fits`: an entry of the map, and the places where its session can be.
* `Run.refinement`: every run of a cache is one of the map, and shows its entries.
-/

namespace SessionCache

variable {σ ι ω : Type} {s : Surroundings σ ι ω} {x x' : Scene σ ι ω} {ds : List (Deed σ)}
  {t t' : Traffic σ ι ω} {event : Traffic.Event σ ι} {events : List (Traffic.Event σ ι)}
  {k key : Key} {slot : Slot σ} {state : σ} {p p' : Place σ}

/-! ## The map -/

/-- What a map of sessions has under a key: nothing, a state, or that it is checked out. -/
inductive Entry (σ : Type) where
  | absent
  | idle (state : σ)
  /-- Checked out, with `removePending = pending`. -/
  | out (pending : Bool)

/-- A map from keys to entries, against which a cache over its store is compared. -/
abbrev Roster (σ : Type) := Key → Entry σ

/-- Whether the answer `info` of `peek` fits an entry: `.ready` or `.passivated` for `idle`,
`.inUse` for `out`. -/
def Entry.Tells (info : EntryInfo) : Entry σ → Prop
  | .absent => False
  | .idle _ => (info.stage = .ready ∨ info.stage = .passivated) ∧ info.removePending = false
  | .out pending => info.stage = .inUse ∧ info.removePending = pending

/-- The errors that say nothing about the map: no room, `.stalled`, or a call of the backend that
failed. -/
inductive CacheError.Hinders : CacheError → Prop where
  | room {failure : CacheError} (h : failure.isCapacity = true) : Hinders failure
  | stalled : Hinders .stalled
  | backend (e : StoreError) : Hinders (.store e)

namespace Roster

/-- What becomes of the map `m` with an event of a step. Each constructor is one answer of one
request, and says what `m` must have had for it. -/
inductive Next (s : Surroundings σ ι ω) (m : Roster σ) :
    Traffic.Event σ ι → Roster σ → Prop where
  | quiet : Next s m .quiet m
  | created {args : ι} {key : Key} {state : σ} (h : m key = .absent) (hm : s.Makes key args state) :
      Next s m (.answered (.create args) (.ok (.created key))) (Function.update m key (.idle state))
  | notCreated {args : ι} {failure : CacheError}
      (h : failure.Hinders ∨ ∃ key message, failure = .lifecycle key .postConstruct message) :
      Next s m (.answered (.create args) (.error failure)) m
  | got {key : Key} {state : σ} (h : m key = .idle state) :
      Next s m (.answered (.get key) (.ok (.checkedOut state))) (Function.update m key (.out false))
  | notGot {key : Key} {failure : CacheError} (h : failure.Hinders ∨
        failure = .notFound key ∧ m key = .absent ∨
        failure = .inUse key ∧ ∃ pending, m key = .out pending) :
      Next s m (.answered (.get key) (.error failure)) m
  | finished {key : Key} {state : σ} (h : m key = .out false) :
      Next s m (.answered (.finish key state) (.ok .done)) (Function.update m key (.idle state))
  | left {key : Key} {state : σ} (h : m key = .out true) :
      Next s m (.answered (.finish key state) (.ok .done)) (Function.update m key .absent)
  | deferred {request : Request σ ι} {key : Key} {pending : Bool}
      (hq : request = .remove key ∨ request = .removeOnFinish key) (h : m key = .out pending) :
      Next s m (.answered request (.ok .done)) (Function.update m key (.out true))
  | removed {key : Key} (h : ∀ pending, m key ≠ .out pending) :
      Next s m (.answered (.remove key) (.ok .done)) (Function.update m key .absent)
  | notRemoved {key : Key} {failure : CacheError} (h : failure.Hinders) :
      Next s m (.answered (.remove key) (.error failure)) m
  | upkeep {request : Request σ ι} {answer : Except CacheError (Response σ)} (hq : request.IsUpkeep)
      (h : ∀ failure, answer = .error failure → failure.Hinders) : Next s m (.answered request answer) m
  | peeked {key : Key} {info : EntryInfo} (hk : info.key = key) (h : (m key).Tells info) :
      Next s m (.answered (.peek key) (.ok (.entry info))) m
  | notPeeked {key : Key} {failure : CacheError}
      (h : failure.Hinders ∨ failure = .notFound key ∧ m key = .absent) :
      Next s m (.answered (.peek key) (.error failure)) m
  | queried {key : Key} {b : Bool} (h : b = true ↔ m key ≠ .absent) :
      Next s m (.answered (.contains key) (.ok (.flag b))) m
  | notQueried {key : Key} {failure : CacheError} (h : failure.Hinders) :
      Next s m (.answered (.contains key) (.error failure)) m

/-- What becomes of the map `m` with the events of a run. -/
inductive Follows (s : Surroundings σ ι ω) (m : Roster σ) :
    List (Traffic.Event σ ι) → Roster σ → Prop where
  | nil : Follows s m [] m
  | snoc {events : List (Traffic.Event σ ι)} {event : Traffic.Event σ ι} {m' m'' : Roster σ}
      (h : Follows s m events m') (h' : Next s m' event m'') : Follows s m (events ++ [event]) m''

end Roster

/-! ## Where sessions are -/

/-- No callback touches the cache, changes a state, or fails; `codec` gives back each state from its
record (`Codec.Faithful`), and there is no `removalTimeout`. -/
structure Surroundings.Neutral (s : Surroundings σ ι ω) : Prop where
  discreet : s.Discreet
  succeeds : ∀ f o o', s.Fires f o o' → f.failed = false
  turns : ∀ phase key state state', s.Turns phase key state state' → state' = state
  faithful : s.codec.Faithful
  lasting : s.settings.removalTimeout = none

theorem Surroundings.Neutral.smooth (hs : s.Neutral) : s.Smooth :=
  ⟨hs.discreet, hs.succeeds, hs.faithful.roundTrips.readable, hs.faithful.shallow, hs.lasting⟩

namespace Entry

variable {e e' : Entry σ}

/-- Which entry goes with which place of the key: `idle state` with a ready slot, or with a record
that decodes to `state`. -/
inductive Fits (codec : Codec σ) (k : Key) : Entry σ → Place σ → Prop where
  | unmet : Fits codec k .absent .unmet
  | gone : Fits codec k .absent .gone
  | stored {bytes : ByteArray} {state : σ} (h : Store.stateOf codec k bytes = .ok state) :
      Fits codec k (.idle state) (.stored bytes)
  | coming {bytes : ByteArray} {state : σ} (h : Store.stateOf codec k bytes = .ok state) :
      Fits codec k (.idle state) (.coming (some bytes))
  | ready (state : σ) : Fits codec k (.idle state) (.ready state)
  | out (pending : Bool) : Fits codec k (.out pending) (.out pending)

/-- What a deed does to the entry of its key. -/
inductive Takes : Entry σ → Deed σ → Entry σ → Prop where
  | fired (e : Entry σ) (f : Firing) : Takes e (.fired f) e
  | entered (key : Key) (state : σ) : Takes .absent (.entered key state) (.idle state)
  | unmade (key : Key) : Takes .absent (.unmade key) .absent
  | checkedOut (key : Key) (state : σ) : Takes (.idle state) (.checkedOut key state) (.out false)
  | returned (key : Key) (state : σ) : Takes (.out false) (.returned key state) (.idle state)
  | deferred (key : Key) (pending : Bool) : Takes (.out pending) (.deferred key) (.out true)
  | removed (key : Key) (state : σ) : Takes (.idle state) (.removed key) .absent
  | left (key : Key) : Takes (.out true) (.removed key) .absent

theorem Takes.of_spoiled (h : Takes e (.spoiled key) e') : False := nomatch h

theorem Takes.of_returned (h : Takes e (.returned key state) e') : e' = .idle state := by
  cases h
  rfl

theorem Takes.of_removed (h : Takes e (.removed key) e') : e' = .absent := by cases h <;> rfl

/-- What deeds do to an entry, in order. -/
inductive Follows : Entry σ → List (Deed σ) → Entry σ → Prop where
  | nil (e : Entry σ) : Follows e [] e
  | cons {e e' e'' : Entry σ} {d : Deed σ} {ds : List (Deed σ)} (h : Takes e d e')
      (h' : Follows e' ds e'') : Follows e (d :: ds) e''

namespace Follows

theorem one {d : Deed σ} (h : Takes e d e') : Follows e [d] e' := .cons h (.nil _)

theorem append {e'' : Entry σ} {ds' : List (Deed σ)} (h : Follows e ds e')
    (h' : Follows e' ds' e'') : Follows e (ds ++ ds') e'' := by
  induction h with
  | nil => exact h'
  | cons hd _ ih => exact .cons hd (ih h')

theorem fired (e : Entry σ) (fs : List Firing) : Follows e (fs.map .fired) e := by
  induction fs with
  | nil => exact .nil e
  | cons f fs ih => exact .cons (.fired e f) ih

/-- Firings leave the entry as it is. -/
theorem fired_append {fs : List Firing} (h : Follows e (fs.map .fired ++ ds) e') :
    Follows e ds e' := by
  induction fs with
  | nil => exact h
  | cons f fs ih =>
    cases h with
    | cons hd h => cases hd with | fired => exact ih h

/-- An entry takes no deed `lost`. -/
theorem not_lost (h : Follows e ds e') : .lost k ∉ ds := by
  induction h with
  | nil => exact List.not_mem_nil
  | cons hd _ ih =>
    rw [List.mem_cons, not_or]
    refine ⟨?_, ih⟩
    rintro rfl
    cases hd

theorem of_incidental (h : Follows e ds e') (hds : ∀ d ∈ ds, d.Incidental) : e' = e := by
  induction h with
  | nil => rfl
  | @cons _ _ _ d _ hd _ ih =>
    rw [ih fun d hmem => hds d (List.mem_cons_of_mem _ hmem)]
    cases hd with
    | fired => rfl
    | _ => exact (hds _ List.mem_cons_self).elim

end Follows

end Entry

/-- A hop without failed callbacks takes an entry along: its deeds lead to an entry that `Fits` the
next place. -/
theorem Hop.follows (hs : s.Neutral) (h : Hop s x k p ds p') (hnow : .earliest ≤ x.now)
    (hnow' : x.now ≤ .latest) (hf : ∀ f, .fired f ∈ ds → f.failed = false) {e : Entry σ}
    (he : e.Fits s.codec k p) : ∃ e', e.Follows ds e' ∧ e'.Fits s.codec k p' := by
  have hlost : ∀ {phase : Phase}, .fired ⟨phase, k, true⟩ ∈ ds → False := fun hmem => nomatch hf _ hmem
  cases h with
  | still => exact ⟨e, .nil e, he⟩
  | meet =>
    cases he
    exact ⟨_, .nil _, .gone⟩
  | attendStored | attendComing => exact ⟨e, .fired e _, he⟩
  | purge ht | purgeComing ht => exact absurd hs.lasting ht
  | announce =>
    cases he with
    | stored h => exact ⟨_, .nil _, .coming h⟩
  | withdraw =>
    cases he with
    | coming h => exact ⟨_, .nil _, .stored h⟩
  | settle hb ht =>
    cases he with
    | coming h =>
      cases h.symm.trans hb
      cases hs.turns _ _ _ _ ht
      exact ⟨_, .fired _ [_, _], .ready _⟩
  | loseComing => exact (hlost List.mem_cons_self).elim
  | enter =>
    cases he
    exact ⟨_, .cons (.fired _ _) (.one (.entered _ _)), .ready _⟩
  | @unmade fs =>
    cases he
    exact ⟨_, (Entry.Follows.fired _ fs).append (.one (.unmade _)), .gone⟩
  | checkOut ht =>
    cases he
    cases hs.turns _ _ _ _ ht
    exact ⟨_, .cons (.fired _ _) (.one (.checkedOut _ _)), .out false⟩
  | park ht hv =>
    cases he
    cases hs.turns _ _ _ _ ht
    exact ⟨_, .fired _ [_], .stored (Store.stateOf_encode hnow hnow'
      (hs.faithful.roundTrips _ _ hv) (hs.faithful.shallow _ _ hv))⟩
  | stay ht ht' =>
    cases he
    cases hs.turns _ _ _ _ ht
    cases hs.turns _ _ _ _ ht'
    exact ⟨_, .fired _ [_, _], .ready _⟩
  | leave =>
    cases he
    exact ⟨_, .cons (.fired _ _) (.one (.removed _ _)), .gone⟩
  | lose => exact (hlost (List.mem_append_right _ List.mem_cons_self)).elim
  | defer =>
    cases he
    exact ⟨_, .one (.deferred _ _), .out true⟩
  | giveIn =>
    cases he
    exact ⟨_, .cons (.fired _ _) (.one (.returned _ _)), .ready _⟩
  | leaveOut =>
    cases he
    exact ⟨_, .cons (.fired _ _) (.one (.left _)), .gone⟩
  | loseOut => exact (hlost List.mem_cons_self).elim
  | erase =>
    cases he
    exact ⟨_, .cons (.fired _ _) (.one (.removed _ _)), .gone⟩
  | spoil hb =>
    cases he with
    | stored h => exact nomatch h.symm.trans hb
  | loseParked => exact (hlost List.mem_cons_self).elim

/-- Each key lies in a place that its entry of `m` `Fits`. -/
def Roster.Suits (s : Surroundings σ ι ω) (m : Roster σ) (x : Scene σ ι ω) : Prop :=
  ∀ k, ∃ p, Lies x k p ∧ (m k).Fits s.codec k p

/-- The clock shows a time that `Timestamp.text` can write. -/
def Scene.Dated (x : Scene σ ι ω) : Prop := .earliest ≤ x.now ∧ x.now ≤ .latest

theorem Path.dated (h : Path s x ds x') (hx : x.Dated) : x'.Dated :=
  ⟨Int.le_trans hx.1 h.surroundings.1.1, h.surroundings.1.2 hx.2⟩

/-- A path takes a map along: each entry `Follows` the deeds about its key, and the new map
`Suits`. -/
theorem Path.follows (hs : s.Neutral) (hx : Sound s x) (h : Path s x ds x') (hu : .tampered ∉ ds)
    (hnow : x.Dated) {m : Roster σ} (hm : m.Suits s x) :
    ∃ m' : Roster σ, (∀ k, (m k).Follows (about k ds) (m' k)) ∧ m'.Suits s x' := by
  have hone : ∀ k, ∃ e, (m k).Follows (about k ds) e ∧ ∃ p, Lies x' k p ∧ e.Fits s.codec k p := by
    intro k
    obtain ⟨p, hp, hfits⟩ := hm k
    -- That no callback fails is known of the whole path only.
    obtain ⟨p', hp', hfollows⟩ := h.follow hx hu hp
      (P := fun q es => (∀ f, .fired f ∈ es → f.failed = false) →
        ∃ e, (m k).Follows es e ∧ e.Fits s.codec k q)
      (fun _ => ⟨m k, .nil _, hfits⟩) fun {y q q' es es'} _ hpasses hhop hq hf => by
        obtain ⟨e, hfollows, hfits⟩ := hq fun f hmem => hf f (List.mem_append_left _ hmem)
        obtain ⟨e', hfollows', hfits'⟩ := hhop.follows hs (Int.le_trans hnow.1 hpasses.1)
          (hpasses.2 hnow.2) (fun f hmem => hf f (List.mem_append_right _ hmem)) hfits
        exact ⟨e', hfollows.append hfollows', hfits'⟩
    obtain ⟨e, hfollows, hfits'⟩ := hfollows fun f hmem =>
      h.succeeds hs.smooth (List.mem_filter.mp hmem).1
    exact ⟨e, hfollows, p', hp', hfits'⟩
  choose m' hm' using hone
  exact ⟨m', fun k => (hm' k).1, fun k => (hm' k).2⟩

/-! ## Reading the map off a scene -/

namespace Roster

variable {m : Roster σ}

theorem Suits.absent (hm : m.Suits s x) (hs : x.cache.slot? k = none) (hr : x.contents k = none) :
    m k = .absent := by
  obtain ⟨p, hp, hfits⟩ := hm k
  generalize m k = e at hfits ⊢
  cases hp with
  | unmet | gone => cases hfits; rfl
  | stored _ hr' => exact nomatch hr.symm.trans hr'
  | coming hs' | ready hs' | out hs' => exact nomatch hs.symm.trans hs'

theorem Suits.out (hm : m.Suits s x) (hs : x.cache.slot? k = some slot) (ho : slot.IsOut) :
    m k = .out slot.removePending := by
  obtain ⟨p, hp, hfits⟩ := hm k
  obtain ⟨rfl, -⟩ := hp.of_out hs ho
  generalize m k = e at hfits ⊢
  cases hfits
  rfl

theorem Suits.ready (hm : m.Suits s x) (hs : x.cache.slot? k = some slot) (hr : slot.IsReady state) :
    m k = .idle state := by
  obtain ⟨p, hp, hfits⟩ := hm k
  obtain ⟨rfl, -⟩ := hp.of_ready hs hr
  generalize m k = e at hfits ⊢
  cases hfits
  rfl

/-- Where the slot is a placeholder, there is a record, and it decodes to the state of the entry. -/
theorem Suits.coming (hm : m.Suits s x) (hs : x.cache.slot? k = some slot) (hp : slot.IsPlaceholder) :
    ∃ bytes state, x.contents k = some bytes ∧ m k = .idle state := by
  obtain ⟨p, hlies, hfits⟩ := hm k
  obtain rfl := hlies.of_placeholder hs hp
  generalize x.contents k = bytes? at hfits ⊢
  generalize m k = e at hfits ⊢
  cases hfits with
  | coming => exact ⟨_, _, rfl, rfl⟩

theorem Suits.stored (hm : m.Suits s x) (hs : x.cache.slot? k = none) (hr : x.contents k ≠ none) :
    ∃ bytes state, x.contents k = some bytes ∧ Store.stateOf s.codec k bytes = .ok state ∧
      m k = .idle state := by
  obtain ⟨bytes, hbytes⟩ := Option.ne_none_iff_exists'.mp hr
  obtain ⟨p, hp, hfits⟩ := hm k
  obtain ⟨rfl, -⟩ := hp.of_record hs hbytes
  generalize m k = e at hfits ⊢
  cases hfits with
  | stored h => exact ⟨bytes, _, hbytes, h, rfl⟩

/-- An entry is `absent` exactly if the key has neither a slot nor a record. -/
theorem Suits.absent_iff (hm : m.Suits s x) :
    m k = .absent ↔ x.cache.slot? k = none ∧ x.contents k = none := by
  refine ⟨fun h => ?_, fun ⟨hs, hr⟩ => hm.absent hs hr⟩
  obtain ⟨p, hp, hfits⟩ := hm k
  rw [h] at hfits
  cases hp with
  | unmet hs hr | gone hs hr => exact ⟨hs, hr⟩
  | stored | coming | ready | out => cases hfits

theorem Suits.slot_of_out {pending : Bool} (hm : m.Suits s x) (h : m k = .out pending) :
    ∃ slot, x.cache.slot? k = some slot ∧ slot.IsOut ∧ slot.removePending = pending ∧
      x.contents k = none := by
  obtain ⟨p, hp, hfits⟩ := hm k
  rw [h] at hfits
  cases hp with
  | unmet | gone | stored | coming | ready => cases hfits
  | out hs ho hp hr => cases hfits; exact ⟨_, hs, ho, hp, hr⟩

/-- A path with `Incidental` deeds alone leaves the map as it is. -/
theorem Suits.of_incidental (hs : s.Neutral) (hx : Sound s x) (hnow : x.Dated) (hm : m.Suits s x)
    (h : Path s x ds x') (hds : ∀ d ∈ ds, d.Incidental) : m.Suits s x' := by
  obtain ⟨m', hfollows, hm'⟩ := h.follows hs hx (not_tampered_of_incidental hds) hnow hm
  have hsame : m' = m := funext fun k =>
    (hfollows k).of_incidental fun d hmem => hds d (List.mem_filter.mp hmem).1
  exact hsame ▸ hm'

/-- No path has a deed `lost`. -/
theorem Suits.not_lost (hs : s.Neutral) (hx : Sound s x) (hnow : x.Dated) (hm : m.Suits s x)
    (h : Path s x ds x') (hu : .tampered ∉ ds) : .lost key ∉ ds := by
  obtain ⟨m', hfollows, -⟩ := h.follows hs hx hu hnow hm
  exact fun hmem => (hfollows key).not_lost (mem_about hmem rfl)

/-- A path that ends in one deed after firings changes the entry of one key. -/
theorem Suits.of_last (hs : s.Neutral) (hx : Sound s x) (hnow : x.Dated) (hm : m.Suits s x)
    (fs : List Firing) {d : Deed σ} (hd : d.key? = some key)
    (h : Path s x (fs.map .fired ++ [d]) x') :
    ∃ e, (m key).Takes d e ∧ Suits s (Function.update m key e) x' := by
  have hu : .tampered ∉ fs.map .fired ++ [d] := by
    rintro hmem
    obtain hmem | hmem := List.mem_append.mp hmem
    · exact not_tampered_fired fs hmem
    · exact nomatch (List.mem_singleton.mp hmem) ▸ hd
  obtain ⟨m', hfollows, hm'⟩ := h.follows hs hx hu hnow hm
  have hlast : ∀ k, (m k).Follows (about k [d]) (m' k) := fun k => by
    have hk := hfollows k
    rw [about_append, about_fired] at hk
    exact hk.fired_append
  obtain ⟨e, htakes, he⟩ : ∃ e, (m key).Takes d e ∧ m' key = e := by
    have hkey := hlast key
    rw [about_self (by simpa using hd)] at hkey
    cases hkey with
    | cons htakes hnil => cases hnil; exact ⟨_, htakes, rfl⟩
  have hupdate : m' = Function.update m key e := funext fun k => by
    by_cases hk : k = key
    · rw [hk, Function.update_self, he]
    · have hother := hlast k
      rw [about_other (by simpa using hd) (Ne.symm hk)] at hother
      rw [Function.update_of_ne hk, hother.of_incidental (by simp)]
  exact ⟨e, htakes, hupdate ▸ hm'⟩

end Roster

/-! ## Steps -/

/-- `Op.finish` is called with a handle only. -/
theorem Step.of_finish {answer : Except CacheError (Response σ)} (h : Step s t event t')
    (he : event = .answered (.finish key state) answer) :
    ∃ rest r w, t.handles = (key, state) ::ₘ rest ∧ exec (Op.finish s key state) t.world = (r, w) ∧
      answer = r.map (fun _ => .done) ∧ t' = { t.moved w with handles := rest } := by
  have htask : ∀ (task : Task ι) (r : Except CacheError (Response σ)),
      Traffic.Event.answered task.request r ≠ .answered (.finish key state) answer := by
    rintro (_ | _ | _ | _) _ h <;> exact nomatch h
  cases h with
  | pass | tamper | edit | get | miss | fetch | create | look | introduce | settle => exact nomatch he
  | fail | giveUp => exact absurd he (htask _ _)
  | @serve request _ _ hq =>
    cases request with
    | finish => exact hq.elim
    | _ => exact nomatch he
  | finish h hw =>
    cases he
    exact ⟨_, _, _, h, hw, rfl, rfl⟩

namespace Roster

variable {m : Roster σ}

/-- `Slot.info` tells what the entry is. -/
theorem Suits.tells (hx : Sound s x) (hm : m.Suits s x) (hs : x.cache.slot? k = some slot)
    (hheld : slot.held = false) (codec : Codec σ) (now : Instant) (key : Key) :
    (m k).Tells (slot.info codec now key) := by
  obtain ⟨state, hr⟩ | ho | hp := hx.kinds hs
  · rw [hm.ready hs hr]
    exact ⟨.inl hr.stage, hr.removePending⟩
  · rw [hm.out hs ho]
    exact ⟨ho.stage, rfl⟩
  · exact nomatch hp.held.symm.trans hheld

/-- `Op.peek` tells what the entry is, or `.notFound` where it is `absent`. -/
theorem Suits.peek (hx : Sound s x) (hm : m.Suits s x) {r : Except CacheError EntryInfo}
    (h : (∃ slot, x.cache.slot? key = some slot ∧
        (slot.held = true ∧ r = .error .stalled ∨
          slot.held = false ∧ r = .ok (slot.info s.codec x.now key))) ∨
      x.cache.slot? key = none ∧
        ((∃ snapshot, r = .ok ⟨key, .passivated, none, false, snapshot⟩ ∧ x.contents key ≠ none) ∨
          (r = .error (.notFound key) ∧ x.contents key = none) ∨ ∃ e, r = .error (.store e))) :
    Next s m (.answered (.peek key) (r.map .entry)) m := by
  obtain ⟨slot, hslot, ⟨-, rfl⟩ | ⟨hheld, rfl⟩⟩ |
    ⟨hslot, ⟨snapshot, rfl, hr⟩ | ⟨rfl, hr⟩ | ⟨e, rfl⟩⟩ := h
  · exact .notPeeked (.inl .stalled)
  · exact .peeked rfl (hm.tells hx hslot hheld _ _ _)
  · obtain ⟨_, state, -, -, hkey⟩ := hm.stored hslot hr
    exact .peeked rfl (hkey ▸ ⟨.inr rfl, rfl⟩)
  · exact .notPeeked (.inr ⟨rfl, hm.absent hslot hr⟩)
  · exact .notPeeked (.inl (.backend e))

/-- A task that fails with an error that `Hinders` leaves the map as it is. -/
theorem Next.noRoom {task : Task ι} {failure : CacheError} (hf : failure.Hinders) :
    Next s m (.answered task.request (.error failure)) m := by
  cases task with
  | creating | introducing => exact .notCreated (.inl hf)
  | fetching | settling => exact .notGot (.inl hf)

/-- By `Account`, an event goes with deeds that lead the map to its `Next`. Which state `finish`
leaves, and that `get` answers `.notFound` for an `absent` key only, has to be known besides. -/
theorem Suits.next (hs : s.Neutral) (hx : Sound s x) (hnow : x.Dated) (hm : m.Suits s x)
    (hpath : Path s x ds x') (h : Account s x event ds) (hu : event ≠ .tampered)
    (hmissed : ∀ key, event = .answered (.get key) (.error (.notFound key)) → m key = .absent)
    (hreturned : ∀ key state answer, event ≠ .answered (.finish key state) answer) :
    ∃ m', Next s m event m' ∧ m'.Suits s x' := by
  have hsame : (∀ d ∈ ds, d.Incidental) → m.Suits s x' := hm.of_incidental hs hx hnow hpath
  have hfired : ∀ fs : List Firing, ds = fs.map .fired → m.Suits s x' := fun fs hfs =>
    hsame fun d hmem => by
      obtain ⟨f, -, rfl⟩ := List.mem_map.mp (hfs ▸ hmem)
      trivial
  have hunchanged : ∀ {key : Key}, m key = .absent → Function.update m key .absent = m :=
    fun hkey => hkey ▸ Function.update_eq_self _ m
  cases h with
  | quiet h => exact ⟨m, .quiet, hsame h⟩
  | tampered => exact absurd rfl hu
  | @created args key state state' hmakes hturns =>
    cases hs.turns _ _ _ _ hturns
    obtain ⟨e, htakes, hm'⟩ := hm.of_last hs hx hnow [_] rfl hpath
    generalize hkey : m key = old at htakes
    cases htakes
    exact ⟨_, .created hkey hmakes, hm'⟩
  | @unmade args key message fs hf =>
    obtain ⟨e, htakes, hm'⟩ := hm.of_last hs hx hnow _ rfl hpath
    generalize hkey : m key = old at htakes
    cases htakes
    exact ⟨m, .notCreated (.inr ⟨_, _, rfl⟩), hunchanged hkey ▸ hm'⟩
  | @noRoom task failure _ ht h hl hf =>
    have hhinders : failure.Hinders := by
      obtain hcapacity | ⟨key, phase, message, rfl⟩ | rfl := hf
      · exact .room hcapacity
      · exact absurd (hl _ _ _ rfl) (hm.not_lost hs hx hnow hpath (not_tampered_of_incidental h))
      · exact .stalled
    exact ⟨m, .noRoom hhinders, hsame h⟩
  | @got key state fs hf =>
    obtain ⟨e, htakes, hm'⟩ := hm.of_last hs hx hnow _ rfl hpath
    generalize hkey : m key = old at htakes
    cases htakes
    exact ⟨_, .got hkey, hm'⟩
  | @fallen key failure ds hfallen =>
    cases hfallen with
    | lost fs => exact (hpath.not_lost hs.smooth fs).elim
    | spoiled =>
      obtain ⟨e, htakes, -⟩ := hm.of_last hs hx hnow [_] rfl hpath
      exact htakes.of_spoiled.elim
    | missed => exact ⟨m, .notGot (.inr (.inl ⟨rfl, hmissed key rfl⟩)), hfired [_] rfl⟩
    | @failed e fs => exact ⟨m, .notGot (.inl (.backend e)), hfired fs rfl⟩
  | absent hslot hr =>
    exact ⟨m, .notGot (.inr (.inl ⟨rfl, hm.absent hslot hr⟩)), hfired [] rfl⟩
  | busy hslot ho =>
    exact ⟨m, .notGot (.inr (.inr ⟨rfl, _, hm.out hslot ho⟩)), hfired [] rfl⟩
  | vain hf =>
    obtain ⟨rfl, -⟩ | ⟨e, rfl⟩ := hf
    · exact ⟨m, .notGot (.inl .stalled), hfired [] rfl⟩
    · exact ⟨m, .notGot (.inl (.backend e)), hfired [] rfl⟩
  | returned | lostOut | left => exact absurd rfl (hreturned _ _ _)
  | @deferred request key slot hq hslot ho =>
    obtain ⟨e, htakes, hm'⟩ := hm.of_last hs hx hnow [] rfl hpath
    generalize hkey : m key = old at htakes
    cases htakes
    exact ⟨_, .deferred hq hkey, hm'⟩
  | @removed key failed r hout hr =>
    obtain rfl : failed = false := hpath.succeeds hs.smooth List.mem_cons_self
    obtain rfl : r = .ok () := hr
    obtain ⟨e, htakes, hm'⟩ := hm.of_last hs hx hnow [_] rfl hpath
    have hnotOut : ∀ pending, m key ≠ .out pending := fun pending h =>
      have ⟨slot, hslot, ho, _⟩ := hm.slot_of_out h
      hout slot hslot ho
    obtain rfl := htakes.of_removed
    exact ⟨_, .removed hnotOut, hm'⟩
  | spoiled =>
    obtain ⟨e, htakes, -⟩ := hm.of_last hs hx hnow [] rfl hpath
    exact htakes.of_spoiled.elim
  | nothing hslot hr =>
    have habsent := hm.absent hslot hr
    refine ⟨_, .removed (fun pending h => nomatch habsent.symm.trans h), ?_⟩
    rw [hunchanged habsent]
    exact hfired [] rfl
  | refused fs hf =>
    obtain rfl | ⟨e, rfl⟩ := hf
    · exact ⟨m, .notRemoved .stalled, hfired fs rfl⟩
    · exact ⟨m, .notRemoved (.backend e), hfired fs rfl⟩
  | upkeep hq h hr =>
    refine ⟨m, .upkeep hq fun failure he => ?_, hsame h⟩
    obtain ⟨e, rfl⟩ := hr failure he
    exact .backend e
  | peeked h => exact ⟨m, hm.peek hx h, hfired [] rfl⟩
  | @queried key r h =>
    refine ⟨m, ?_, hfired [] rfl⟩
    obtain rfl | ⟨-, e, rfl⟩ := h
    · refine .queried ?_
      rw [Ne, hm.absent_iff, Bool.or_eq_true, not_and_or]
      exact or_congr Option.isSome_iff_ne_none Option.isSome_iff_ne_none
    · exact .notQueried (.backend e)

/-- `get` answers `.notFound` for an `absent` key only. -/
theorem Suits.absent_of_notFound (hs : s.Neutral) (hx : Sound s t.scene) (hm : m.Suits s t.scene)
    (h : Step s t event t') (he : event = .answered (.get key) (.error (.notFound key))) :
    m key = .absent := by
  cases h with
  | pass | tamper | edit | fetch | create | look | finish => cases he
  | @serve request _ _ hq =>
    cases request with
    | get => exact hq.elim
    | _ => cases he
  | @get key' answer w h hw =>
    obtain ⟨slot, hslot⟩ := Option.isSome_iff_exists.mp h
    cases Op.exec_get (d := t.toDesk) hs.discreet hx hslot hw <;> cases he
  | @miss key' failure w h hw =>
    cases he
    have hslot := Traffic.slot?_of_not_linked h
    obtain ⟨-, ⟨-, hr⟩ | ⟨e, he⟩⟩ := Step.miss_scene hx h hw
    · exact hm.absent hslot hr
    · cases he
  | @fail task rest deadline failure w w' h hd hw hw' =>
    obtain ⟨⟨⟩, -⟩ | ⟨-, -, hf⟩ := Op.exec_look (d := t.toDesk) hs.discreet hx hw
    obtain rfl := Except.error.inj (Traffic.Event.answered.inj he).2
    obtain hcapacity | ⟨_, _, _, hlifecycle⟩ := hf _ rfl
    · cases hcapacity
    · cases hlifecycle
  | giveUp => cases Except.error.inj (Traffic.Event.answered.inj he).2
  | introduce => cases he
  | @settle key' rest answer w h hw =>
    obtain ⟨slot, hslot, hp, -⟩ := hx.at_task h (decide_eq_true rfl)
    obtain ⟨state, rfl, -⟩ | ⟨failure, ds, rfl, -, hfallen, -⟩ :=
      Op.exec_settle_checkOut (d := t.toDesk) hs.discreet h hslot hp hw
    · cases he
    · obtain ⟨bytes, _, hr, -⟩ := hm.coming hslot hp
      cases he
      cases hfallen with
      | missed hnone => cases hr.symm.trans hnone

/-- `finish key state` leads to `idle state`, or to `absent` where the entry is `out true`. -/
theorem Suits.finish (hs : s.Neutral) (hx : Sound s t.scene) (hnow : t.scene.Dated)
    (hm : m.Suits s t.scene) {rest : Multiset (Key × σ)} {answer : Except CacheError Unit}
    {w : World σ ω} (h : t.handles = (key, state) ::ₘ rest)
    (hw : exec (Op.finish s key state) t.world = (answer, w)) :
    ∃ m', Next s m (.answered (.finish key state) (answer.map fun _ => .done)) m' ∧
      m'.Suits s (w.scene { t.toDesk with handles := rest }) := by
  obtain ⟨slot, hslot, ho, -⟩ := hx.at_handle h
  have hkey := hm.out hslot ho
  obtain ⟨hpending, failed, hr, -, hpath⟩ | ⟨hpending, rfl, state', -, hturns, -, -, hpath⟩ |
      ⟨-, message, rfl, -, hpath⟩ :=
    Op.exec_finish (d := t.toDesk) hs.discreet h hslot ho hw
  · obtain rfl : failed = false := hpath.succeeds hs.smooth List.mem_cons_self
    obtain rfl : answer = .ok () := hr
    obtain ⟨e, htakes, hm'⟩ := hm.of_last hs hx hnow [_] rfl hpath
    obtain rfl := htakes.of_removed
    exact ⟨_, .left (hpending ▸ hkey), hm'⟩
  · cases hs.turns _ _ _ _ hturns
    obtain ⟨e, htakes, hm'⟩ := hm.of_last hs hx hnow [_] rfl hpath
    obtain rfl := htakes.of_returned
    exact ⟨_, .finished (hpending ▸ hkey), hm'⟩
  · exact (hpath.not_lost hs.smooth []).elim

/-- Each step leads the map to its `Next`, which `Suits` again. -/
theorem Suits.step (hs : s.Neutral) (hx : Sound s t.scene) (hnow : t.scene.Dated)
    (hm : m.Suits s t.scene) (h : Step s t event t') (hu : event ≠ .tampered) :
    ∃ m', Next s m event m' ∧ m'.Suits s t'.scene := by
  by_cases hreturned : ∀ key state answer, event ≠ .answered (.finish key state) answer
  · obtain ⟨ds, hpath, haccount⟩ := h.path hs.discreet hx
    exact hm.next hs hx hnow hpath haccount hu (fun key he => hm.absent_of_notFound hs hx h he)
      hreturned
  · push Not at hreturned
    obtain ⟨key, state, answer, rfl⟩ := hreturned
    obtain ⟨rest, r, w, hrest, hw, rfl, rfl⟩ := h.of_finish rfl
    exact hm.finish hs hx hnow hrest hw

end Roster

/-! ## Runs -/

/-- What the cache and the store have of `key` is what `entry` says: for `idle state` either a ready
slot with `state`, or a record that decodes to it, and not both; for `out` a slot `.inUse`; for
`absent` neither. -/
structure Traffic.Shows (s : Surroundings σ ι ω) (t : Traffic σ ι ω) (key : Key)
    (entry : Entry σ) : Prop where
  idle : ∀ state, entry = .idle state ↔
    Xor (∃ slot, t.world.cache.slot? key = some slot ∧ slot.stage = .ready ∧
        slot.payload = some state ∧ t.world.store.contents key = none)
      (t.world.cache.slot? key = none ∧ ∃ bytes, t.world.store.contents key = some bytes ∧
        Store.stateOf s.codec key bytes = .ok state)
  out : ∀ pending, entry = .out pending ↔
    (∃ slot, t.world.cache.slot? key = some slot ∧ slot.stage = .inUse ∧
      slot.removePending = pending) ∧ t.world.store.contents key = none
  absent : entry = .absent ↔
    t.world.cache.slot? key = none ∧ t.world.store.contents key = none

/-- The events of a run lead a map that `Suits` at the start to one that `Suits` at the end. -/
theorem Roster.Suits.run {m : Roster σ} (hs : s.Neutral) (hx : Sound s t.scene)
    (hnow : t.scene.Dated) (hm : m.Suits s t.scene) (h : Run s t events t') (hu : Undisturbed events) :
    ∃ m', Roster.Follows s m events m' ∧ m'.Suits s t'.scene := by
  suffices hrun : Sound s t'.scene ∧ t'.scene.Dated ∧
      ∃ m', Roster.Follows s m events m' ∧ m'.Suits s t'.scene from hrun.2.2
  induction h with
  | nil => exact ⟨hx, hnow, m, .nil, hm⟩
  | @snoc t' t'' events event hrun hstep ih =>
    obtain ⟨hx', hnow', m', hfollows, hm'⟩ := ih fun h => hu (List.mem_append_left _ h)
    obtain ⟨m'', hnext, hm''⟩ := hm'.step hs hx' hnow' hstep fun he => hu (by simp [he])
    obtain ⟨ds, hpath, -⟩ := hstep.path hs.discreet hx'
    exact ⟨hpath.sound hx', hpath.dated hnow', m'', hfollows.snoc hnext, hm''⟩

end SessionCache
