import SessionCache.Proofs.Traffic.Steps

/-!
# Where a session is, and how it gets elsewhere

On a store that is only written to through the cache, a session is in one place: in memory or in the
store, but not in both. `Place` lists the places of a key and `Lies` says which one it is in; `Hop`
is what one shift can do to it. Everything that is claimed of one session along a run follows from
`Shift.hop`: a shift makes each key hop from its place to the next, with the deeds that are about it.

* `Lies.place_inj`: a key is in one place.
* `Path.follow`: what holds of a key after each hop holds of it after a path.
-/

namespace SessionCache

variable {σ ι ω : Type} {s : Surroundings σ ι ω} {x x' x'' : Scene σ ι ω} {ds ds' : List (Deed σ)}
  {key k : Key} {slot : Slot σ} {state : σ}

/-! ## Places -/

/-- The place of one key in a `Scene`, with its state or its record. -/
inductive Place (σ : Type) where
  /-- `known` does not have the key. -/
  | unmet
  /-- The key is `known` and has neither a slot nor a record. -/
  | gone
  /-- The key has a record and no slot. -/
  | stored (bytes : ByteArray)
  /-- The slot is a placeholder, and the record is `bytes?`. -/
  | coming (bytes? : Option ByteArray)
  /-- The slot is ready with `state`, and there is no record. -/
  | ready (state : σ)
  /-- The slot is checked out with `removePending = pending`, and there is no record. -/
  | out (pending : Bool)

/-- The place of a `known` key without a slot, by its record. -/
def Place.ofRecord : Option ByteArray → Place σ
  | some bytes => .stored bytes
  | none => .gone

/-- Where `k` is in `x`, by its slot, its record, and whether it is `known`. -/
inductive Lies (x : Scene σ ι ω) (k : Key) : Place σ → Prop where
  | unmet (hs : x.cache.slot? k = none) (hr : x.contents k = none) (hk : k ∉ x.known) :
      Lies x k .unmet
  | gone (hs : x.cache.slot? k = none) (hr : x.contents k = none) (hk : k ∈ x.known) :
      Lies x k .gone
  | stored {bytes : ByteArray} (hs : x.cache.slot? k = none) (hr : x.contents k = some bytes)
      (hk : k ∈ x.known) : Lies x k (.stored bytes)
  | coming {slot : Slot σ} {bytes? : Option ByteArray} (hs : x.cache.slot? k = some slot)
      (hslot : slot.IsPlaceholder) (hr : x.contents k = bytes?) : Lies x k (.coming bytes?)
  | ready {slot : Slot σ} {state : σ} (hs : x.cache.slot? k = some slot) (hslot : slot.IsReady state)
      (hr : x.contents k = none) : Lies x k (.ready state)
  | out {slot : Slot σ} {pending : Bool} (hs : x.cache.slot? k = some slot) (hslot : slot.IsOut)
      (hp : slot.removePending = pending) (hr : x.contents k = none) : Lies x k (.out pending)

/-- The key of a deed. -/
def Deed.key? : Deed σ → Option Key
  | .fired f => some f.key
  | .entered key _ | .unmade key | .checkedOut key _ | .returned key _ | .deferred key
  | .removed key | .lost key | .spoiled key => some key
  | .tampered => none

/-- The deeds of `ds` with the key `k`. -/
def about (k : Key) (ds : List (Deed σ)) : List (Deed σ) := ds.filter fun e => e.key? = some k

@[simp] theorem about_nil : about k ([] : List (Deed σ)) = [] := rfl

@[simp]
theorem about_append (ds ds' : List (Deed σ)) : about k (ds ++ ds') = about k ds ++ about k ds' :=
  List.filter_append _ _

theorem about_self (h : ∀ e ∈ ds, e.key? = some k) : about k ds = ds :=
  List.filter_eq_self.mpr fun e he => by simpa using h e he

theorem about_other (h : ∀ e ∈ ds, e.key? = some key) (hne : key ≠ k) : about k ds = [] :=
  List.filter_eq_nil_iff.mpr fun e he => by simpa [h e he] using hne

/-! ## Hops -/

/-- What becomes of the record of `k` in `discardRecord`: it is deleted, or stays as it was and
`fault` lets a delete of it fail. -/
def Scene.Drops (x : Scene σ ι ω) (k : Key) (before after : Option ByteArray) : Prop :=
  after = none ∨ after = before ∧ (before ≠ none → ∃ n, x.fault n (.delete k) ≠ none)

/-- What a shift from `x` can do to the key `k`: from which place to which, with which deeds about
it. Each constructor is the part of a `Shift` that concerns its key. -/
inductive Hop (s : Surroundings σ ι ω) (x : Scene σ ι ω) (k : Key) :
    Place σ → List (Deed σ) → Place σ → Prop where
  | still {p : Place σ} : Hop s x k p [] p
  | meet : Hop s x k .unmet [] .gone
  | attendStored {bytes : ByteArray} {fs : List Firing} (hf : ∀ f ∈ fs, f.key = k ∧
      (f.failed = true → ∃ n, x.fault n (.delete k) ≠ none)) :
      Hop s x k (.stored bytes) (fs.map .fired) (.stored bytes)
  | attendComing {bytes? : Option ByteArray} {fs : List Firing} (hf : ∀ f ∈ fs, f.key = k ∧
      (f.failed = true → ∃ n, x.fault n (.delete k) ≠ none)) :
      Hop s x k (.coming bytes?) (fs.map .fired) (.coming bytes?)
  | purge {bytes : ByteArray} (h : s.settings.removalTimeout ≠ none) :
      Hop s x k (.stored bytes) [] .gone
  | purgeComing {bytes? : Option ByteArray} (h : s.settings.removalTimeout ≠ none) :
      Hop s x k (.coming bytes?) [] (.coming none)
  | announce {bytes : ByteArray} : Hop s x k (.stored bytes) [] (.coming (some bytes))
  | withdraw {bytes? : Option ByteArray} : Hop s x k (.coming bytes?) [] (.ofRecord bytes?)
  | settle {bytes : ByteArray} {state state' : σ} (hb : Store.stateOf s.codec k bytes = .ok state)
      (ht : s.Turns .postActivate k state state') :
      Hop s x k (.coming (some bytes))
        [.fired ⟨.preActivate, k, false⟩, .fired ⟨.postActivate, k, false⟩] (.ready state')
  | loseComing {phase : Phase} {bytes? bytes?' : Option ByteArray} (hd : x.Drops k bytes? bytes?') :
      Hop s x k (.coming bytes?) [.fired ⟨phase, k, true⟩, .lost k] (.ofRecord bytes?')
  | enter {args : ι} {state state' : σ} (hm : s.Makes k args state)
      (ht : s.Turns .postConstruct k state state') :
      Hop s x k .unmet [.fired ⟨.postConstruct, k, false⟩, .entered k state'] (.ready state')
  | unmade {fs : List Firing} (hf : fs = [] ∨ fs = [⟨.postConstruct, k, true⟩]) :
      Hop s x k .unmet (fs.map .fired ++ [.unmade k]) .gone
  | checkOut {state state' : σ} (ht : s.Turns .preInvoke k state state') :
      Hop s x k (.ready state) [.fired ⟨.preInvoke, k, false⟩, .checkedOut k state'] (.out false)
  | park {state state' : σ} {value : Json.Value} (ht : s.Turns .prePassivate k state state')
      (hv : s.codec.encode state' = .ok value) :
      Hop s x k (.ready state) [.fired ⟨.prePassivate, k, false⟩]
        (.stored (Envelope.encode k x.now value))
  | stay {state state' state'' : σ} (ht : s.Turns .prePassivate k state state')
      (ht' : s.Turns .postActivate k state' state'') :
      Hop s x k (.ready state)
        [.fired ⟨.prePassivate, k, false⟩, .fired ⟨.postActivate, k, false⟩] (.ready state'')
  | leave {state : σ} {failed : Bool} :
      Hop s x k (.ready state) [.fired ⟨.preDestroy, k, failed⟩, .removed k] .gone
  | lose {state : σ} {phase : Phase} {fs : List Firing} (hf : ∀ f ∈ fs, f.key = k) :
      Hop s x k (.ready state) (fs.map .fired ++ [.fired ⟨phase, k, true⟩, .lost k]) .gone
  | defer {pending : Bool} : Hop s x k (.out pending) [.deferred k] (.out true)
  | giveIn {state state' : σ} (ht : s.Turns .postInvoke k state state') :
      Hop s x k (.out false) [.fired ⟨.postInvoke, k, false⟩, .returned k state'] (.ready state')
  | leaveOut {failed : Bool} :
      Hop s x k (.out true) [.fired ⟨.preDestroy, k, failed⟩, .removed k] .gone
  | loseOut : Hop s x k (.out false) [.fired ⟨.postInvoke, k, true⟩, .lost k] .gone
  | erase {bytes : ByteArray} {state : σ} {failed : Bool}
      (hb : Store.stateOf s.codec k bytes = .ok state) :
      Hop s x k (.stored bytes) [.fired ⟨.preDestroy, k, failed⟩, .removed k] .gone
  | spoil {bytes : ByteArray} {fault : RecordFault}
      (hb : Store.stateOf s.codec k bytes = .error fault) :
      Hop s x k (.stored bytes) [.spoiled k] .gone
  | loseParked {phase : Phase} {bytes : ByteArray} {bytes? : Option ByteArray}
      (hd : x.Drops k (some bytes) bytes?) :
      Hop s x k (.stored bytes) [.fired ⟨phase, k, true⟩, .lost k] (.ofRecord bytes?)

/-! ## Reading places -/

namespace Lies

variable {p p' : Place σ}

theorem of_ready (h : Lies x k p) (hs : x.cache.slot? k = some slot) (hslot : slot.IsReady state) :
    p = .ready state ∧ x.contents k = none := by
  cases h with
  | unmet h | gone h | stored h => exact nomatch hs.symm.trans h
  | coming h hp =>
    obtain rfl := Option.some.inj (hs.symm.trans h)
    exact nomatch hp.stage.symm.trans hslot.stage
  | ready h hr hn =>
    obtain rfl := Option.some.inj (hs.symm.trans h)
    exact ⟨congrArg _ (Option.some.inj (hr.payload.symm.trans hslot.payload)), hn⟩
  | out h ho =>
    obtain rfl := Option.some.inj (hs.symm.trans h)
    exact nomatch ho.stage.symm.trans hslot.stage

theorem of_out (h : Lies x k p) (hs : x.cache.slot? k = some slot) (hslot : slot.IsOut) :
    p = .out slot.removePending ∧ x.contents k = none := by
  cases h with
  | unmet h | gone h | stored h => exact nomatch hs.symm.trans h
  | coming h hp =>
    obtain rfl := Option.some.inj (hs.symm.trans h)
    exact nomatch hp.stage.symm.trans hslot.stage
  | ready h hr =>
    obtain rfl := Option.some.inj (hs.symm.trans h)
    exact nomatch hr.stage.symm.trans hslot.stage
  | out h _ hp hn =>
    obtain rfl := Option.some.inj (hs.symm.trans h)
    exact ⟨congrArg _ hp.symm, hn⟩

theorem of_placeholder (h : Lies x k p) (hs : x.cache.slot? k = some slot)
    (hslot : slot.IsPlaceholder) : p = .coming (x.contents k) := by
  cases h with
  | unmet h | gone h | stored h => exact nomatch hs.symm.trans h
  | coming _ _ hr => rw [hr]
  | ready h hr =>
    obtain rfl := Option.some.inj (hs.symm.trans h)
    exact nomatch hr.stage.symm.trans hslot.stage
  | out h ho =>
    obtain rfl := Option.some.inj (hs.symm.trans h)
    exact nomatch ho.stage.symm.trans hslot.stage

theorem of_record (h : Lies x k p) (hs : x.cache.slot? k = none) {bytes : ByteArray}
    (hr : x.contents k = some bytes) : p = .stored bytes ∧ k ∈ x.known := by
  cases h with
  | unmet _ h | gone _ h => exact nomatch hr.symm.trans h
  | stored _ h hk =>
    obtain rfl := Option.some.inj (hr.symm.trans h)
    exact ⟨rfl, hk⟩
  | coming h | ready h | out h => exact nomatch hs.symm.trans h

theorem of_task (h : Lies x k p) (hx : Sound s x) {task : Task ι} {rest : Multiset (Task ι)}
    (ht : x.tasks = task ::ₘ rest) (ha : task.awaits k = true) :
    p = .coming (x.contents k) ∧ k ∈ x.known := by
  obtain ⟨slot, hs, hslot, -⟩ := hx.at_task ht ha
  exact ⟨h.of_placeholder hs hslot, hx.known hs⟩

theorem of_unknown (h : Lies x k p) (hx : Sound s x) (hk : k ∉ x.known) :
    p = .unmet ∧ x.cache.slot? k = none ∧ x.contents k = none := by
  have hlinked : ∀ {slot}, x.cache.slot? k = some slot → False := fun hs =>
    hk (hx.known hs)
  cases h with
  | unmet hs hr => exact ⟨rfl, hs, hr⟩
  | gone _ _ h | stored _ _ h => exact absurd h hk
  | coming h | ready h | out h => exact (hlinked h).elim

/-- A key lies in one place only. -/
theorem place_inj (h : Lies x k p) (h' : Lies x k p') : p = p' := by
  cases h with
  | unmet hs hr hk =>
    cases h' with
    | unmet => rfl
    | gone _ _ hk' => exact absurd hk' hk
    | stored _ hr' => exact nomatch hr.symm.trans hr'
    | coming hs' | ready hs' | out hs' => exact nomatch hs.symm.trans hs'
  | gone hs hr hk =>
    cases h' with
    | unmet _ _ hk' => exact absurd hk hk'
    | gone => rfl
    | stored _ hr' => exact nomatch hr.symm.trans hr'
    | coming hs' | ready hs' | out hs' => exact nomatch hs.symm.trans hs'
  | stored hs hr => exact (h'.of_record hs hr).1.symm
  | coming hs hp hr => exact hr ▸ (h'.of_placeholder hs hp).symm
  | ready hs hr => exact (h'.of_ready hs hr).1.symm
  | out hs ho hp => exact hp ▸ (h'.of_out hs ho).1.symm

/-- `k` stays in its place where its slot, its record and its being `known` stay. -/
theorem same (h : Lies x k p) (hs : x'.cache.slot? k = x.cache.slot? k)
    (hr : x'.contents k = x.contents k) (hk : k ∈ x'.known ↔ k ∈ x.known) : Lies x' k p := by
  cases h with
  | unmet h hn hu => exact .unmet (hs.trans h) (hr.trans hn) fun h => hu (hk.mp h)
  | gone h hn hu => exact .gone (hs.trans h) (hr.trans hn) (hk.mpr hu)
  | stored h hn hu => exact .stored (hs.trans h) (hr.trans hn) (hk.mpr hu)
  | coming h hp hn => exact .coming (hs.trans h) hp (hr.trans hn)
  | ready h hp hn => exact .ready (hs.trans h) hp (hr.trans hn)
  | out h ho hp hn => exact .out (hs.trans h) ho hp (hr.trans hn)

theorem ofRecord (hs : x.cache.slot? k = none) (hk : k ∈ x.known) :
    Lies x k (.ofRecord (x.contents k)) := by
  cases hr : x.contents k with
  | none => exact .gone hs hr hk
  | some bytes => exact .stored hs hr hk

/-- A key that is `.coming` is awaited by a task. -/
theorem awaited (h : Lies x k p) (hx : Sound s x) {bytes? : Option ByteArray}
    (hp : p = .coming bytes?) : ∃ task ∈ x.tasks, task.awaits k = true := by
  subst hp
  cases h with
  | coming hslot hp =>
    obtain ⟨-, hcomers⟩ := hx.placeholder_of_held hslot hp.held
    exact Multiset.countP_pos.mp (Nat.pos_of_ne_zero (hcomers.trans_ne Nat.one_ne_zero))

end Lies

/-! ## What a shift does to one key -/

theorem Scene.Discards.other {contents : Key → Option ByteArray} (h : x.Discards key contents)
    (hne : key ≠ k) : contents k = x.contents k := by
  obtain rfl | ⟨rfl, -⟩ := h
  · exact Function.update_of_ne (Ne.symm hne) _ _
  · rfl

theorem Scene.Discards.drops {contents : Key → Option ByteArray} (h : x.Discards k contents) :
    x.Drops k (x.contents k) (contents k) := by
  obtain rfl | ⟨rfl, hf⟩ := h
  · exact .inl (Function.update_self ..)
  · exact .inr ⟨rfl, hf⟩

theorem Scene.Discards.of_none {contents : Key → Option ByteArray} (h : x.Discards k contents)
    (hr : x.contents k = none) : contents k = none := by
  obtain rfl | ⟨rfl, -⟩ := h
  · exact Function.update_self ..
  · exact hr

/-- A key that is `Away` is `.stored` or `.coming`. -/
theorem Lies.of_away {p : Place σ} (h : Lies x k p) (hx : Sound s x) (ha : x.Away k) :
    (∃ bytes, p = .stored bytes) ∨ ∃ bytes?, p = .coming bytes? := by
  obtain ⟨hs, hr⟩ | hk := ha
  · obtain ⟨bytes, hr⟩ := Option.ne_none_iff_exists'.mp hr
    exact .inl ⟨bytes, (h.of_record hs hr).1⟩
  · obtain ⟨rest, hrest⟩ := Multiset.exists_cons_of_mem hk
    exact .inr ⟨_, (h.of_task hx hrest (decide_eq_true rfl)).1⟩

/-- The place of `k` after a shift, with the hop that leads there. -/
def Fares (s : Surroundings σ ι ω) (x : Scene σ ι ω) (k : Key) (p : Place σ) (ds : List (Deed σ))
    (x' : Scene σ ι ω) : Prop :=
  ∃ p', Lies x' k p' ∧ Hop s x k p (about k ds) p'

section Fares

variable {p : Place σ}

/-- A shift that changes nothing of `k` leaves it in its place. -/
theorem Lies.quiet (h : Lies x k p) (hs : x'.cache.slot? k = x.cache.slot? k)
    (hr : x'.contents k = x.contents k) (hk : k ∈ x'.known ↔ k ∈ x.known) : Fares s x k p [] x' :=
  ⟨p, h.same hs hr hk, .still⟩

/-- A shift whose deeds are about `key` alone leaves the other keys in their places. -/
theorem Lies.fares (h : Lies x k p) (key : Key) (hd : ∀ e ∈ ds, e.key? = some key)
    (hself : Lies x key p → ∃ p', Lies x' key p' ∧ Hop s x key p ds p')
    (hs : key ≠ k → x'.cache.slot? k = x.cache.slot? k)
    (hr : key ≠ k → x'.contents k = x.contents k)
    (hk : key ≠ k → (k ∈ x'.known ↔ k ∈ x.known)) : Fares s x k p ds x' := by
  by_cases hne : key = k
  · subst hne
    obtain ⟨p', hp', hhop⟩ := hself h
    exact ⟨p', hp', (about_self hd).symm ▸ hhop⟩
  · exact ⟨p, h.same (hs hne) (hr hne) (hk hne), about_other hd hne ▸ .still⟩

theorem mem_insert_other {known : Set Key} (hne : key ≠ k) : k ∈ insert key known ↔ k ∈ known := by
  rw [Set.mem_insert_iff, or_iff_right (Ne.symm hne)]

theorem Lies.fares_meet (h : Lies x k p) (hx : Sound s x) (key : Key) :
    Fares s x k p [] { x with known := insert key x.known } := by
  by_cases hk : k ∈ x.known
  · exact h.quiet rfl rfl (iff_of_true (Set.mem_insert_of_mem _ hk) hk)
  · by_cases hne : key = k
    · subst hne
      obtain ⟨rfl, hs, hr⟩ := h.of_unknown hx hk
      exact ⟨.gone, .gone hs hr (Set.mem_insert _ _), .meet⟩
    · exact h.quiet rfl rfl (mem_insert_other hne)

theorem Lies.fares_purge (h : Lies x k p) (ht : s.settings.removalTimeout ≠ none)
    {contents : Key → Option ByteArray} (hc : Store.Fewer x.contents contents) :
    Fares s x k p [] { x with contents } := by
  obtain hr | hr := hc k
  · exact h.quiet rfl hr Iff.rfl
  · have hnone : x.contents k = none → Fares s x k p [] { x with contents } := fun hn =>
      h.quiet rfl (hr.trans hn.symm) Iff.rfl
    cases h with
    | unmet _ hn | gone _ hn | ready _ _ hn | out _ _ _ hn => exact hnone hn
    | stored hs _ hk => exact ⟨.gone, .gone hs hr hk, .purge ht⟩
    | coming hs hp _ => exact ⟨.coming none, .coming hs hp hr, .purgeComing ht⟩

@[simp] theorem about_fired (fs : List Firing) :
    about k (fs.map Deed.fired : List (Deed σ)) = (fs.filter (·.key = k)).map .fired := by
  unfold about
  rw [List.filter_map]
  congr 2
  funext f
  simp [Deed.key?]

theorem Lies.fares_attend (h : Lies x k p) (hx : Sound s x) {fs : List Firing} {o : ω}
    (hf : ∀ f ∈ fs, x.Away f.key ∧ (f.failed = true → ∃ n, x.fault n (.delete f.key) ≠ none)) :
    Fares s x k p (fs.map .fired) { x with outside := o } := by
  refine ⟨p, h.same rfl rfl Iff.rfl, ?_⟩
  rw [about_fired]
  have hall : ∀ f ∈ fs.filter (·.key = k), f.key = k ∧
      (f.failed = true → ∃ n, x.fault n (.delete k) ≠ none) := by
    intro f hmem
    obtain ⟨hmem, hk⟩ := List.mem_filter.mp hmem
    have hk := of_decide_eq_true hk
    exact ⟨hk, hk ▸ (hf f hmem).2⟩
  cases hfs : fs.filter (·.key = k) with
  | nil => exact .still
  | cons f rest =>
    obtain ⟨hmem, hk⟩ := List.mem_filter.mp (hfs ▸ List.mem_cons_self : f ∈ fs.filter (·.key = k))
    have haway := (hf f hmem).1
    rw [of_decide_eq_true hk] at haway
    rw [hfs] at hall
    obtain ⟨bytes, rfl⟩ | ⟨bytes?, rfl⟩ := h.of_away hx haway
    · exact .attendStored hall
    · exact .attendComing hall

end Fares

/-- In a shift, each key hops from its place to the next, with the deeds about it. -/
theorem Shift.hop (hx : Sound s x) (h : Shift s x ds x') (hu : .tampered ∉ ds) {p : Place σ}
    (hp : Lies x k p) : Fares s x k p ds x' := by
  cases h with
  | pass | count | edit | ask | take | quit => exact hp.quiet rfl rfl Iff.rfl
  | promote key => exact hp.quiet (Cache.slot?_promote _ _ _) rfl Iff.rfl
  | meet key => exact hp.fares_meet hx key
  | tamper => exact absurd List.mem_cons_self hu
  | purge ht hc => exact hp.fares_purge ht hc
  | attend fs hf => exact hp.fares_attend hx hf
  | @announce key slot _ hs hr hslot =>
    refine hp.fares key (by simp) (fun hp => ?_) (Cache.link_other _ _) (fun _ => rfl)
      mem_insert_other
    obtain ⟨bytes, hr⟩ := Option.ne_none_iff_exists'.mp hr
    obtain ⟨rfl, -⟩ := hp.of_record hs hr
    exact ⟨_, .coming (Cache.link_self _ _ _) hslot hr, .announce⟩
  | @abandon key _ rest ht =>
    refine hp.fares key (by simp) (fun hp => ?_) (Cache.unlink_other _) (fun _ => rfl)
      fun _ => Iff.rfl
    obtain ⟨rfl, hk⟩ := hp.of_task hx ht (decide_eq_true rfl)
    exact ⟨_, .ofRecord (Cache.unlink_self _ _) hk, .withdraw⟩
  | @retreat key rest ht =>
    refine hp.fares key (by simp) (fun hp => ?_) (Cache.retract_other _) (fun _ => rfl)
      fun _ => Iff.rfl
    obtain ⟨rfl, hk⟩ := hp.of_task hx ht (decide_eq_true rfl)
    exact ⟨_, .ofRecord (Cache.retract_self _ _) hk, .withdraw⟩
  | @settle key rest bytes state state' o time ht hr hb hturns =>
    refine hp.fares key (by simp [Deed.key?]) (fun hp => ?_)
      (fun hne => Cache.update_other _ hne (·.toSettled time state'))
      (fun hne => Function.update_of_ne (Ne.symm hne) _ _) fun _ => Iff.rfl
    obtain ⟨slot, hs, hslot, -⟩ := hx.at_task ht (decide_eq_true rfl)
    obtain rfl := hp.of_placeholder hs hslot
    have hs' : ((x.cache.update key (·.toSettled time state')).markIdle x.now key).slot? key = _ :=
      Cache.update_self hs (·.toSettled time state')
    rw [hr]
    exact ⟨_, .ready hs' (hslot.toSettled time state') (Function.update_self ..), .settle hb hturns⟩
  | @loseComing key rest phase contents o ht hc =>
    refine hp.fares key (by simp [Deed.key?]) (fun hp => ?_) (Cache.retract_other _) hc.other
      fun _ => Iff.rfl
    obtain ⟨rfl, hk⟩ := hp.of_task hx ht (decide_eq_true rfl)
    exact ⟨_, .ofRecord (Cache.retract_self _ _) hk, .loseComing hc.drops⟩
  | @enter key args rest slot state state' o ht hk hm hturns hslot =>
    refine hp.fares key (by simp [Deed.key?]) (fun hp => ?_) (Cache.link_other _ _) (fun _ => rfl)
      mem_insert_other
    obtain ⟨rfl, hs, hr⟩ := hp.of_unknown hx hk
    exact ⟨_, .ready (Cache.link_self _ _ _) hslot hr, .enter hm hturns⟩
  | @unmade key args rest o fs ht hk hf =>
    have habout : ∀ e ∈ fs.map Deed.fired ++ [Deed.unmade (σ := σ) key], e.key? = some key := by
      obtain rfl | rfl := hf <;> simp [Deed.key?]
    refine hp.fares key habout (fun hp => ?_) (fun _ => rfl) (fun _ => rfl) mem_insert_other
    obtain ⟨rfl, hs, hr⟩ := hp.of_unknown hx hk
    exact ⟨_, .gone hs hr (Set.mem_insert _ _), .unmade hf⟩
  | @checkOut key slot state state' o time hs hslot hturns =>
    refine hp.fares key (by simp [Deed.key?]) (fun hp => ?_)
      (fun hne => Cache.update_other _ hne (·.toOut time)) (fun _ => rfl) fun _ => Iff.rfl
    obtain ⟨rfl, hr⟩ := hp.of_ready hs hslot
    have hs' : ((x.cache.update key (·.toOut time)).markInUse x.now key).slot? key = _ :=
      Cache.update_self hs (·.toOut time)
    exact ⟨_, .out hs' (hslot.toOut time) hslot.removePending hr, .checkOut hturns⟩
  | @park key slot state state' value o hs hslot hturns hv =>
    refine hp.fares key (by simp [Deed.key?]) (fun hp => ?_) (Cache.unlink_other _)
      (fun hne => Function.update_of_ne (Ne.symm hne) _ _) fun _ => Iff.rfl
    obtain ⟨rfl, -⟩ := hp.of_ready hs hslot
    have hk := hx.known hs
    exact ⟨_, .stored (Cache.unlink_self _ _) (Function.update_self ..) hk, .park hturns hv⟩
  | @stay key slot state state' state'' o hs hslot hturns hturns' =>
    refine hp.fares key (by simp [Deed.key?]) (fun hp => ?_)
      (fun hne => Cache.update_other _ hne _) (fun _ => rfl) fun _ => Iff.rfl
    obtain ⟨rfl, hr⟩ := hp.of_ready hs hslot
    exact ⟨_, .ready (Cache.update_self hs _) (hslot.toKept state'') hr, .stay hturns hturns'⟩
  | @leave key slot state failed o hs hslot =>
    refine hp.fares key (by simp [Deed.key?]) (fun hp => ?_) (Cache.unlink_other _) (fun _ => rfl)
      fun _ => Iff.rfl
    obtain ⟨rfl, hr⟩ := hp.of_ready hs hslot
    have hk := hx.known hs
    exact ⟨_, .gone (Cache.unlink_self _ _) hr hk, .leave⟩
  | @lose key slot state phase contents o fs hs hslot hf hc =>
    have habout : ∀ e ∈ fs.map Deed.fired ++ [Deed.fired (σ := σ) ⟨phase, key, true⟩, .lost key],
        e.key? = some key := by
      intro e he
      obtain he | he := List.mem_append.mp he
      · obtain ⟨f, hmem, rfl⟩ := List.mem_map.mp he
        exact congrArg some (hf f hmem)
      · obtain rfl | rfl := List.mem_pair.mp he <;> rfl
    refine hp.fares key habout (fun hp => ?_) (Cache.unlink_other _) hc.other fun _ => Iff.rfl
    obtain ⟨rfl, hr⟩ := hp.of_ready hs hslot
    have hk := hx.known hs
    exact ⟨_, .gone (Cache.unlink_self _ _) (hc.of_none hr) hk, .lose hf⟩
  | @defer key slot hs hslot =>
    refine hp.fares key (by simp [Deed.key?]) (fun hp => ?_)
      (fun hne => Cache.update_other _ hne _) (fun _ => rfl) fun _ => Iff.rfl
    obtain ⟨rfl, hr⟩ := hp.of_out hs hslot
    exact ⟨_, .out (Cache.update_self hs _) hslot.toPending rfl hr, .defer⟩
  | @giveIn key slot rest state state' o time hh hs hslot hpending hturns =>
    refine hp.fares key (by simp [Deed.key?]) (fun hp => ?_)
      (fun hne => Cache.update_other _ hne (·.toReady time state')) (fun _ => rfl) fun _ => Iff.rfl
    obtain ⟨rfl, hr⟩ := hp.of_out hs hslot
    have hs' : ((x.cache.update key (·.toReady time state')).markIdle x.now key).slot? key = _ :=
      Cache.update_self hs (·.toReady time state')
    rw [hpending]
    exact ⟨_, .ready hs' (hslot.toReady hpending time state') hr, .giveIn hturns⟩
  | @leaveOut key slot rest state failed o hh hs hslot hpending =>
    refine hp.fares key (by simp [Deed.key?]) (fun hp => ?_) (Cache.unlink_other _) (fun _ => rfl)
      fun _ => Iff.rfl
    obtain ⟨rfl, hr⟩ := hp.of_out hs hslot
    have hk := hx.known hs
    rw [hpending]
    exact ⟨_, .gone (Cache.unlink_self _ _) hr hk, .leaveOut⟩
  | @loseOut key slot rest state contents o hh hs hslot hpending hc =>
    refine hp.fares key (by simp [Deed.key?]) (fun hp => ?_) (Cache.unlink_other _) hc.other
      fun _ => Iff.rfl
    obtain ⟨rfl, hr⟩ := hp.of_out hs hslot
    have hk := hx.known hs
    rw [hpending]
    exact ⟨_, .gone (Cache.unlink_self _ _) (hc.of_none hr) hk, .loseOut⟩
  | @erase key bytes state failed o hs hr hb =>
    refine hp.fares key (by simp [Deed.key?]) (fun hp => ?_) (fun _ => rfl)
      (fun hne => Function.update_of_ne (Ne.symm hne) _ _) fun _ => Iff.rfl
    obtain ⟨rfl, hk⟩ := hp.of_record hs hr
    exact ⟨_, .gone hs (Function.update_self ..) hk, .erase hb⟩
  | @spoil key bytes fault hs hr hb =>
    refine hp.fares key (by simp [Deed.key?]) (fun hp => ?_) (fun _ => rfl)
      (fun hne => Function.update_of_ne (Ne.symm hne) _ _) fun _ => Iff.rfl
    obtain ⟨rfl, hk⟩ := hp.of_record hs hr
    exact ⟨_, .gone hs (Function.update_self ..) hk, .spoil hb⟩
  | @loseParked key phase contents o hs hr hc =>
    refine hp.fares key (by simp [Deed.key?]) (fun hp => ?_) (fun _ => rfl) hc.other fun _ => Iff.rfl
    obtain ⟨bytes, hr⟩ := Option.ne_none_iff_exists'.mp hr
    obtain ⟨rfl, hk⟩ := hp.of_record hs hr
    exact ⟨_, .ofRecord hs hk, .loseParked (hr ▸ hc.drops)⟩

/-! ## What paths do to one key -/

theorem Instant.Passes.refl (t : Instant) : t.Passes t := ⟨Int.le_refl t.nanos, id⟩

/-- In a shift, time goes on and `fault` stays. -/
theorem Shift.surroundings (h : Shift s x ds x') : x.now.Passes x'.now ∧ x'.fault = x.fault := by
  cases h with
  | pass h hc => exact ⟨⟨h, hc⟩, rfl⟩
  | _ => exact ⟨.refl _, rfl⟩

theorem Path.surroundings (h : Path s x ds x') : x.now.Passes x'.now ∧ x'.fault = x.fault := by
  induction h with
  | nil => exact ⟨.refl _, rfl⟩
  | cons hs _ ih =>
    obtain ⟨hpasses, hfault⟩ := hs.surroundings
    exact ⟨hpasses.trans ih.1, ih.2.trans hfault⟩

/-- An invariant `P` of the place of `k` and of the deeds about it so far, which each hop keeps,
holds at the end of a path. -/
theorem Path.follow (hx : Sound s x) (h : Path s x ds x') (hu : .tampered ∉ ds) {p : Place σ}
    (hp : Lies x k p) {P : Place σ → List (Deed σ) → Prop} (hP : P p [])
    (hstep : ∀ {y : Scene σ ι ω} {q q' : Place σ} {es es' : List (Deed σ)}, y.fault = x.fault →
      x.now.Passes y.now → Hop s y k q es' q' → P q es → P q' (es ++ es')) :
    ∃ p', Lies x' k p' ∧ P p' (about k ds) := by
  suffices hgeneral : ∀ es, P p es → ∃ p', Lies x' k p' ∧ P p' (es ++ about k ds) from
    hgeneral [] hP
  clear hP
  induction h generalizing p with
  | nil => exact fun es hP => ⟨p, hp, (List.append_nil es).symm ▸ hP⟩
  | cons hs hpath ih =>
    intro es hP
    obtain ⟨p₁, hp₁, hhop⟩ := hs.hop hx (fun h => hu (List.mem_append_left _ h)) hp
    obtain ⟨hpasses, hfault⟩ := hs.surroundings
    have hnext := ih (hs.sound hx) (fun h => hu (List.mem_append_right _ h)) hp₁
      (fun hf hpasses' hhop' => hstep (hf.trans hfault) (hpasses.trans hpasses') hhop') _
      (hstep rfl (.refl _) hhop hP)
    rwa [about_append, ← List.append_assoc]

/-! ## Runs -/

theorem not_tampered_of_incidental (h : ∀ e ∈ ds, e.Incidental) : .tampered ∉ ds := fun he => h _ he

theorem not_tampered_fired (fs : List Firing) :
    (.tampered : Deed σ) ∉ (fs.map .fired : List (Deed σ)) := by
  intro h
  obtain ⟨f, -, hf⟩ := List.mem_map.mp h
  exact nomatch hf

variable {t t' t'' : Traffic σ ι ω} {event : Traffic.Event σ ι} {events : List (Traffic.Event σ ι)}

/-- Only `Step.tamper` has the deed `tampered`. -/
theorem Account.untampered (h : Account s x event ds) (he : event ≠ .tampered) :
    .tampered ∉ ds := by
  cases h with
  | quiet h | noRoom _ h | upkeep _ h => exact not_tampered_of_incidental h
  | tampered => exact absurd rfl he
  | fallen h =>
    cases h with
    | lost => simp [not_tampered_fired]
    | spoiled | missed => simp
    | failed => exact not_tampered_fired _
  | unmade | got => simp [not_tampered_fired]
  | refused => exact not_tampered_fired _
  | created | absent | busy | vain | returned | lostOut | left | deferred | removed | spoiled
  | nothing | peeked | queried => simp

/-- A run without `.tampered` is a path without the deed `tampered`. -/
theorem Run.path (hs : s.Discreet) (hx : Sound s t.scene) (h : Run s t events t')
    (hu : Undisturbed events) :
    ∃ ds, Path s t.scene ds t'.scene ∧ .tampered ∉ ds := by
  induction h with
  | nil => exact ⟨[], .nil, by simp⟩
  | snoc _ hstep ih =>
    obtain ⟨ds, hpath, hds⟩ := ih fun h => hu (List.mem_append_left _ h)
    obtain ⟨ds', hpath', haccount⟩ := hstep.path hs (hpath.sound hx)
    have hevent := haccount.untampered fun he => hu (by simp [he])
    exact ⟨ds ++ ds', hpath.trans hpath', fun h => (List.mem_append.mp h).elim hds hevent⟩

/-- Each key lies in some place: a key with a ready or checked-out slot has no record, and one with
a record is `known`. -/
def Scene.Tidy (x : Scene σ ι ω) : Prop := ∀ k, ∃ p, Lies x k p

theorem Path.tidy (hx : Sound s x) (h : Path s x ds x') (hu : .tampered ∉ ds) (ht : x.Tidy) :
    x'.Tidy := by
  intro k
  obtain ⟨p, hp⟩ := ht k
  obtain ⟨p', hp', -⟩ := h.follow hx hu hp (P := fun _ _ => True) trivial
    fun _ _ _ _ => trivial
  exact ⟨p', hp'⟩

theorem Traffic.Fresh.tidy (h : t.Fresh s) : t.scene.Tidy := by
  intro k
  have hs : t.scene.cache.slot? k = none := by
    change t.world.cache.slot? k = none
    rw [h.cache]
    rfl
  cases hr : t.scene.contents k with
  | some bytes => exact ⟨_, .stored hs hr (h.stored k (hr.trans_ne (Option.some_ne_none _)))⟩
  | none =>
    by_cases hk : k ∈ t.known
    · exact ⟨_, .gone hs hr hk⟩
    · exact ⟨_, .unmet hs hr hk⟩

/-- In a run without `.tampered` from a `Fresh` cache, the scene is `Tidy` at the end. -/
theorem Run.tidy (hs : s.Discreet) (ht : t.Fresh s) (h : Run s t events t')
    (hu : Undisturbed events) : t'.scene.Tidy := by
  obtain ⟨ds, hpath, hds⟩ := h.path hs ht.sound hu
  exact hpath.tidy ht.sound hds ht.tidy

end SessionCache
