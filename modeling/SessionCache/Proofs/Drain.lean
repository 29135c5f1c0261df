import SessionCache.Proofs.Chronicle
import SessionCache.Proofs.Conservation
import SessionCache.Proofs.Lookups
import SessionCache.Proofs.Store.Agreement
import SessionCache.Proofs.Traffic.Procession
import SessionCache.Scenario.Stored

/-!
# Draining a cache before a restart

Before a restart all ready sessions are passivated. Afterwards each of them is in the store with its
last state, or could not be written and is ready as before; and a cache that is opened over the same
backend brings back every session that is in the store, with its last state, and no other.

* `Op.Drained`: what a drain does to each session, and its report.
* `Op.exec_get_opened`: what a cache that was just opened answers who asks for a session.
* `Chronicle.drain`: both, in every state that a cache in use gets to, as long as no session nests
  deeper than `Envelope.decode` reads (`Codec.Shallow`).
* `Run.drain_lost`: a deeper one is reported as passivated, and lost.
-/

namespace SessionCache

variable {σ ι ω : Type} {s : Surroundings σ ι ω} {d : Desk σ ι} {t t' : Traffic σ ι ω}
  {events : List (Traffic.Event σ ι)} {w w' : World σ ω} {key : Key} {state : σ}
  {last last' : Key → Option σ} {l : Entries}

/-! ## Backends that are opened again -/

/-- A backend that holds records is the same when it is opened again. -/
theorem Backend.Holds.openedAgain {b : Backend} (h : b.Holds l) :
    Scenario.openedAgain b = .ok b := by
  cases b with
  | memory m => rfl
  | directory path files =>
    obtain ⟨-, rfl⟩ := h
    rfl
  | table t => rfl

namespace Op

/-- The first `get` in a cache that is opened over `store` answers the state of the record, or
`.notFound` where there is none. -/
theorem exec_get_opened (hs : s.Calm) (hp : s.patience ≠ 0) (hroom : 0 < s.settings.maxSize)
    {store : Store} (hserves : store.Serves) (now : Instant) (outside : ω) (key : Key) :
    (store.contents key = none →
      (exec (get s key) (Traffic.opened s store now outside).world).1 = .error (.notFound key)) ∧
    ∀ bytes state, store.contents key = some bytes → Store.stateOf s.codec key bytes = .ok state →
      (exec (get s key) (Traffic.opened s store now outside).world).1 = .ok state := by
  refine ⟨fun hr => exec_get_absent hp rfl hr hserves, fun bytes state hr hb => ?_⟩
  obtain ⟨w, hget⟩ := exec_get_of_record (w := (Traffic.opened s store now outside).world) hs hp
    rfl hserves hr hb (Int.natCast_pos.mpr hroom)
  rw [hget]

/-! ## Draining -/

/-- What `Op.passivateAll` did from `w` to `w'`: the keys of `rounds` were passivated, each once,
with these answers. -/
structure Drained (s : Surroundings σ ι ω) (last : Key → Option σ) (w w' : World σ ω)
    (rounds : List (Key × Except CacheError Unit)) (report : SweepReport) : Prop where
  nodup : (rounds.map (·.1)).Nodup
  tried : ∀ key, key ∈ rounds.map (·.1) ↔
    ∃ slot, w.cache.slot? key = some slot ∧ slot.stage = .ready
  /-- The record of `key` decodes to its last state, or the write failed and the slot is as it
  was. -/
  ends : ∀ key r, (key, r) ∈ rounds → ∃ slot state, w.cache.slot? key = some slot ∧
    slot.IsReady state ∧ last key = some state ∧ Stowed s key slot state w w' r
  others : ∀ key, key ∉ rounds.map (·.1) →
    w'.cache.slot? key = w.cache.slot? key ∧ w'.store.contents key = w.store.contents key
  examined : report.examined = w.cache.slots.length
  passivated : report.passivated = rounds.countP (·.2.isOk)
  failed : report.failed = rounds.countP (!·.2.isOk)
  /-- `passivated` and `failed` together are the slots that were `.ready`. -/
  adds_up : report.passivated + report.failed = w.cache.slots.countP (·.2.stage = .ready)

theorem exec_passivateAll_drained (hs : s.Calm) (hx : Sound s (w.scene d))
    (hl : (w.scene d).Recalls s last) :
    ∃ rounds report w', exec (passivateAll s) w = (.ok report, w') ∧
      Drained s last w w' rounds report := by
  obtain ⟨rounds, w', hrun, hprocession, hkeys, hnodup, htried⟩ :=
    exec_passivateAll_procession hs.discreet hx
  have hcount : rounds.length = w.cache.slots.countP (·.2.stage = .ready) := by
    rw [← List.length_map (·.1), hkeys, List.length_map, List.countP_eq_length_filter]
  refine ⟨rounds, SweepReport.tallied { examined := w.cache.slots.length } rounds, w', hrun, hnodup,
    htried, fun key r hmem => ?_, fun key => hprocession.spares hs.discreet, rfl,
    Nat.zero_add _, Nat.zero_add _, ?_⟩
  · obtain ⟨slot, state, hslot, hr, hstowed⟩ := hprocession.stowed hs hx.distinct hnodup hmem
    exact ⟨slot, state, hslot, hr, hl.of_ready hslot hr, hstowed⟩
  · rw [← hcount, ← countP_isOk_add rounds]
    simp only [SweepReport.tallied, Nat.zero_add]

end Op

/-- `Op.passivateAll` leaves each session that was ready in the store with its last state, or ready
as it was, and other keys alone (`Drained`). A cache opened over the same backend afterwards answers
the last state to `get` of each key with a record, and `.notFound` to `get` of the others, in memory
or not. -/
theorem Chronicle.drain (hs : s.Calm) (hf : s.codec.Faithful) (ht : t.Fresh s)
    (hnow : t.scene.Dated) (hl : t.world.store.backend.Holds l)
    (hrecords : ∀ key bytes, t.world.store.contents key = some bytes →
      ∃ state, last key = some state ∧ Store.stateOf s.codec key bytes = .ok state)
    (h : Chronicle s t last events t' last') (hu : Undisturbed events) :
    ∃ rounds report w, exec (Op.passivateAll s) t'.world = (.ok report, w) ∧
      Op.Drained s last' t'.world w rounds report ∧
      (∀ key slot, w.cache.slot? key = some slot → slot.stage ≠ .passivated →
        w.store.contents key = none) ∧
      ∃ backend, Scenario.openedAgain w.store.backend = .ok backend ∧
        ∀ (s' : Surroundings σ ι ω) (store : Store) (now : Instant) (outside : ω) (key : Key),
          s'.Calm → s'.codec = s.codec → s'.patience ≠ 0 → 0 < s'.settings.maxSize →
          store.backend = backend → store.Open →
          (w.store.contents key ≠ none → ∃ state, last' key = some state ∧
            (exec (Op.get s' key) (Traffic.opened s' store now outside).world).1 = .ok state) ∧
          (w.store.contents key = none →
            (exec (Op.get s' key) (Traffic.opened s' store now outside).world).1 =
              .error (.notFound key)) := by
  have hx : Sound s t'.scene := h.run.sound hs.discreet ht
  obtain ⟨hnow', hlast⟩ := h.recalls hs hf ht.sound hnow (ht.recalls hrecords) hu
  obtain ⟨rounds, report, w, hrun, hdrained⟩ :=
    Op.exec_passivateAll_drained (d := t'.toDesk) hs hx hlast
  have hdrain := h.snoc (.serve (show Request.Plain t' .passivateAll from trivial)
    (Op.exec_perform_passivateAll hrun))
  have hundisturbed : Undisturbed (events ++ [.answered .passivateAll (.ok (.report report))]) := by
    simpa [Undisturbed] using hu
  have hrecalls := (hdrain.recalls hs hf ht.sound hnow (ht.recalls hrecords) hundisturbed).2
  have hmoves := hdrain.run.moves hs.discreet ht.sound hundisturbed
  obtain ⟨l', hl'⟩ := hmoves.holds hl
  refine ⟨rounds, report, w, hrun, hdrained, fun key slot hslot hstage => ?_, _, hl'.openedAgain,
    fun s' store now outside key hs' hcodec hp hroom hbackend hopen => ?_⟩
  · by_contra hr
    obtain ⟨p, hp, -⟩ := hrecalls key
    exact hp.not_resident hr ⟨slot, hslot, hstage⟩
  · have hsame : store.contents = w.store.contents := congrArg Backend.contents hbackend
    have hserves : store.Serves := Store.serves_of_holds hopen (hbackend ▸ hl')
    obtain ⟨habsent, hfound⟩ := Op.exec_get_opened hs' hp hroom hserves now outside key
    refine ⟨fun hr => ?_, fun hr => habsent (hsame ▸ hr)⟩
    obtain ⟨bytes, hr⟩ := Option.ne_none_iff_exists'.mp hr
    obtain ⟨state, hstate, hb⟩ := hrecalls.of_record hr
    exact ⟨state, hstate, hfound bytes state (hsame ▸ hr) (hcodec ▸ hb)⟩

/-- A cache in `Surroundings.small`, opened over an empty directory, without faults. -/
def Traffic.filed : Traffic Bool Bool Journal :=
  .opened (.small fun _ _ => false)
    { Store.empty fun _ _ => none with backend := .directory "sessions" .empty } ⟨0⟩ {}

/-- A session is made and drained into a directory, and a cache opened over it answers its state. -/
theorem Chronicle.drain_of_created :
    ∃ events t' last' w,
      Chronicle (.small fun _ _ => false) .filed (fun _ => none) events t' last' ∧
      t'.Linked (.ofNat 0) ∧ last' (.ofNat 0) = some true ∧
      exec (Op.passivateAll (.small fun _ _ => false)) t'.world =
        (.ok { examined := 1, passivated := 1 }, w) ∧
      (exec (Op.get (.small fun _ _ => false) (.ofNat 0))
        (Traffic.opened (.small fun _ _ => false) w.store ⟨1⟩ {}).world).1 = .ok true := by
  have h₁ := (Run.nil (s := .small fun _ _ => false) (t := .filed)).thenCreate true
    (by decide) (fun hk => hk rfl)
  obtain ⟨last', h⟩ := h₁.chronicle fun _ => none
  obtain ⟨rounds, report, w, hrun, hdrained, -, backend, hopened, hlater⟩ := Chronicle.drain
    (t := .filed) Surroundings.small_calm Codec.flag_faithful (Traffic.opened_fresh _ _ _ _)
    ⟨by decide, by decide⟩
    (show Backend.Holds (.directory "sessions" .empty) [] from ⟨by decide, rfl⟩)
    (fun key bytes hr => nomatch (show (none : Option ByteArray) = some bytes from hr)) h
    (by simp [Undisturbed])
  obtain rfl : SweepReport.mk 1 1 0 0 = report := Except.ok.inj (congrArg Prod.fst hrun)
  have hthere : w.store.contents (.ofNat 0) ≠ none := by
    rw [← show _ = w from congrArg Prod.snd hrun]
    decide +kernel
  have hsame : Scenario.openedAgain w.store.backend = .ok w.store.backend := by
    rw [← show _ = w from congrArg Prod.snd hrun]
    rfl
  obtain ⟨round, hmem, hkey⟩ := List.mem_map.mp ((hdrained.tried (.ofNat 0)).mpr ⟨_, rfl, rfl⟩)
  obtain ⟨slot, state, hslot, hr, hlast, -⟩ := hdrained.ends _ _ hmem
  rw [hkey] at hslot hlast
  obtain rfl := Option.some.inj hslot
  obtain rfl := Option.some.inj hr.payload
  have hopen : w.store.Open := by
    rw [← show _ = w from congrArg Prod.snd hrun]
    exact fun _ _ => rfl
  obtain ⟨state, hstate, hget⟩ := (hlater (.small fun _ _ => false) w.store ⟨1⟩ {} (.ofNat 0)
    Surroundings.small_calm rfl (by decide) (by decide)
    (Except.ok.inj (hsame.symm.trans hopened)) hopen).1 hthere
  obtain rfl := Option.some.inj (hlast.symm.trans hstate)
  exact ⟨_, _, last', _, h, rfl, hlast, hrun, hget⟩

/-- A state of length 127 of `Codec.chain` is drained into a directory, and `passivateAll` counts it
as passivated. A cache opened over the directory answers `.deserialization` to `get`, and deletes
the record. -/
theorem Run.drain_lost : ∃ events t' slot w w',
    Surroundings.chained.Calm ∧ Surroundings.chained.codec.RoundTrips ∧
      Run .chained (.chained (.directory "sessions" .empty)) events t' ∧ Undisturbed events ∧
      t'.world.cache.slot? (.ofNat 0) = some slot ∧ slot.IsReady 127 ∧
      exec (Op.passivateAll .chained) t'.world = (.ok { examined := 1, passivated := 1 }, w) ∧
      Scenario.openedAgain w.store.backend = .ok w.store.backend ∧
      w.store.contents (.ofNat 0) ≠ none ∧
      exec (Op.get .chained (.ofNat 0)) (Traffic.opened .chained w.store ⟨1⟩ {}).world =
        (.error (.deserialization (.ofNat 0) .malformed), w') ∧
      w'.store.contents (.ofNat 0) = none := by
  have hs : Surroundings.chained.Calm := Surroundings.recording_calm
  have hfresh : (Traffic.chained (.directory "sessions" .empty)).Fresh .chained :=
    Traffic.opened_fresh _ _ _ _
  have h₁ := (Run.nil (s := .chained) (t := .chained (.directory "sessions" .empty))).thenCreate 127
    (by decide) (fun hk => hk rfl)
  obtain ⟨report, w, hdrain, hlost⟩ :=
    Op.exec_passivateAll_chain hs rfl (h₁.sound hs.discreet hfresh) (by decide)
  have hreport : .ok { examined := 1, passivated := 1 } = Except.ok report :=
    congrArg Prod.fst hdrain
  obtain rfl := Except.ok.inj hreport
  obtain ⟨-, bytes, hr, hb⟩ :=
    hlost rfl (.ofNat 0) _ 127 rfl ⟨rfl, rfl, rfl, rfl, rfl⟩ (by decide)
  have h₂ := h₁.snoc (.serve (show Request.Plain _ .passivateAll from trivial)
    (Op.exec_perform_passivateAll hdrain))
  have hmoves := h₂.moves hs.discreet hfresh.sound (by simp [Undisturbed])
  have hempty : Backend.Holds (.directory "sessions" .empty) [] := ⟨by decide, rfl⟩
  obtain ⟨l, hholds⟩ := hmoves.holds hempty
  have hfault : (fun _ _ => none) = w.store.fault := congrArg (·.2.store.fault) hdrain
  have hopen : w.store.Open := fun n call => (congrFun₂ hfault n call).symm
  obtain ⟨w', hget, -, hgone⟩ := Op.exec_get_of_spoiled
    (w := (Traffic.opened .chained w.store ⟨1⟩ {}).world) hs (by decide) rfl
    (Store.serves_of_holds hopen hholds) hr hb (show (0 : Int) < 1 by decide)
  exact ⟨_, _, _, w, w', hs, Codec.chain_roundTrips, h₁, by simp [Undisturbed], rfl,
    ⟨rfl, rfl, rfl, rfl, rfl⟩, hdrain, hholds.openedAgain, hr.trans_ne (Option.some_ne_none _),
    hget, hgone⟩

end SessionCache
