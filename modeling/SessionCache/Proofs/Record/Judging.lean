import SessionCache.Proofs.Record.Recovery

/-!
# Which bytes are a record

Any bytes can be stored under a key. Whether they are taken for the record of the key is settled by
the envelope that they are, if they are one (`Envelope.IsIn`): by its format first, and then by its
key. The state in it comes last, and matters only to the reader of a session.

* `Envelope.isIn_iff`, `Envelope.IsIn.unique`: bytes are at most one envelope, whatever they are
  stored under.
* `Envelope.judged_iff`: `Envelope.decode` gives the one verdict on bytes under a key.
* `Store.judging`: to inspect a record and to activate its session are to judge it alike, and only
  activation deletes it, if it fails.
-/

namespace SessionCache

open Json Text

/-! ## Envelopes -/

namespace Envelope

/-- `(name, tree)` is in `fields`, and no other field has that `name`. -/
def Once (name : String) (tree : Tree) (fields : List (String × Tree)) : Prop :=
  ∃ before after, fields = before ++ (name, tree) :: after ∧ ∀ e ∈ before ++ after, e.1 ≠ name

/-- The trees that the four fields of an envelope are read from: an object with each of the four
names exactly once, in any order and among any other names, or an array of four. -/
inductive Parts (format key time state : Tree) : Tree → Prop where
  | object (fields : List (String × Tree)) (hformat : Once "format" format fields)
      (hkey : Once "key" key fields) (htime : Once "passivated_at" time fields)
      (hstate : Once "state" state fields) :
      Parts format key time state (.object (fields.map fun e => (some e.1, e.2)))
  | array : Parts format key time state (.array [format, key, time, state])

/-- `bytes` parse to a document whose four `Parts` are the fields of `envelope`. -/
def IsIn (envelope : Envelope) (bytes : ByteArray) : Prop :=
  ∃ tree format key time state, Tree.parse? (Letters.ofBytes bytes) = some tree ∧
    Parts format key time state tree ∧ formatOf? format = some envelope.format ∧
    keyOf? key = some envelope.key ∧ timeOf? time = some envelope.passivatedAt ∧
    state.toValue? stateDepth = some envelope.state

theorem only?_eq_some_iff {name : String} {tree : Tree} {fields : List (String × Tree)} :
    only? name fields = some tree ↔ Once name tree fields := by
  constructor
  · intro h
    rw [only?] at h
    split at h
    · next other tree' hfilter =>
      cases h
      obtain ⟨before, after, rfl, hbefore, hname, hafter⟩ := List.filter_eq_cons_iff.mp hfilter
      obtain rfl : other = name := by simpa using hname
      refine ⟨before, after, rfl, fun e he => ?_⟩
      rcases List.mem_append.mp he with he | he
      · simpa using hbefore e he
      · simpa using List.filter_eq_nil_iff.mp hafter e he
    · cases h
  · rintro ⟨before, after, rfl, hother⟩
    have hnone (l : List (String × Tree)) (hl : ∀ e ∈ l, e.1 ≠ name) : l.filter (·.1 = name) = [] :=
      List.filter_eq_nil_iff.mpr fun e he => by simpa using hl e he
    rw [only?, List.filter_append, hnone before fun e he => hother e (List.mem_append_left _ he),
      List.filter_cons_of_pos (by simp), hnone after fun e he => hother e (List.mem_append_right _ he)]
    rfl

theorem named?_eq_some_iff {fields : List (Option String × Tree)} {named : List (String × Tree)} :
    named? fields = some named ↔ fields = named.map fun e => (some e.1, e.2) := by
  induction fields generalizing named with
  | nil => cases named <;> simp [named?]
  | cons field rest ih =>
    obtain ⟨name, tree⟩ := field
    cases name with
    | none => cases named <;> simp [named?]
    | some name =>
      cases named with
      | nil => cases hrest : named? rest <;> simp [named?, hrest]
      | cons first others =>
        obtain ⟨first, tree'⟩ := first
        rw [List.map_cons, List.cons.injEq, ← ih]
        cases hrest : named? rest <;> simp [named?, hrest, and_assoc]

theorem ofParts?_eq_some_iff {format key time state : Tree} {envelope : Envelope} :
    ofParts? format key time state = some envelope ↔
      formatOf? format = some envelope.format ∧ keyOf? key = some envelope.key ∧
        timeOf? time = some envelope.passivatedAt ∧
        state.toValue? stateDepth = some envelope.state := by
  obtain ⟨n, k, t, v⟩ := envelope
  rw [ofParts?]
  cases formatOf? format <;> cases keyOf? key <;> cases timeOf? time <;>
    cases state.toValue? stateDepth <;> simp

theorem ofTree?_eq_some_iff {tree : Tree} {envelope : Envelope} :
    ofTree? tree = some envelope ↔ ∃ format key time state, Parts format key time state tree ∧
      ofParts? format key time state = some envelope := by
  constructor
  · intro h
    unfold ofTree? at h
    split at h
    · next fields =>
      simp only [Option.bind_eq_bind, Option.bind_eq_some_iff] at h
      obtain ⟨named, hnamed, format, hformat, key, hkey, time, htime, state, hstate, h⟩ := h
      rw [only?_eq_some_iff] at hformat hkey htime hstate
      rw [named?_eq_some_iff.mp hnamed]
      exact ⟨format, key, time, state, .object named hformat hkey htime hstate, h⟩
    · exact ⟨_, _, _, _, .array, h⟩
    · cases h
  · rintro ⟨format, key, time, state, hparts, h⟩
    cases hparts with
    | object fields hformat hkey htime hstate =>
      rw [← only?_eq_some_iff] at hformat hkey htime hstate
      rw [ofTree?, named?_eq_some_iff.mpr rfl]
      simp only [Option.bind_eq_bind, Option.bind_some, hformat, hkey, htime, hstate, h]
    | array => exact h

/-- `IsIn` is what `ofTree?` of the parsed bytes says. -/
theorem isIn_iff {envelope : Envelope} {bytes : ByteArray} :
    envelope.IsIn bytes ↔ (Tree.parse? (Letters.ofBytes bytes)).bind ofTree? = some envelope := by
  simp only [IsIn, Option.bind_eq_some_iff, ofTree?_eq_some_iff, ofParts?_eq_some_iff]
  constructor
  · rintro ⟨tree, format, key, time, state, htree, h⟩
    exact ⟨tree, htree, format, key, time, state, h⟩
  · rintro ⟨tree, htree, format, key, time, state, h⟩
    exact ⟨tree, format, key, time, state, htree, h⟩

/-- `bytes` are at most one envelope. -/
theorem IsIn.unique {envelope other : Envelope} {bytes : ByteArray} (h : envelope.IsIn bytes)
    (h' : other.IsIn bytes) : envelope = other :=
  Option.some.inj ((isIn_iff.mp h).symm.trans (isIn_iff.mp h'))

/-- The verdict on `bytes` under `key`: malformed, another format, another key, or the state, in
this order. -/
inductive Judged (key : Key) (bytes : ByteArray) : Except RecordFault Value → Prop where
  | malformed (h : ∀ envelope : Envelope, ¬envelope.IsIn bytes) : Judged key bytes (.error .malformed)
  | unsupportedFormat {envelope : Envelope} (h : envelope.IsIn bytes)
      (hformat : envelope.format ≠ recordFormat) :
      Judged key bytes (.error (.unsupportedFormat envelope.format))
  | belongsTo {envelope : Envelope} (h : envelope.IsIn bytes)
      (hformat : envelope.format = recordFormat) (hkey : envelope.key ≠ key) :
      Judged key bytes (.error (.belongsTo envelope.key))
  | accepted {envelope : Envelope} (h : envelope.IsIn bytes)
      (hformat : envelope.format = recordFormat) (hkey : envelope.key = key) :
      Judged key bytes (.ok envelope.state)

variable {key : Key} {bytes : ByteArray} {r : Except RecordFault Value}

/-- `Judged` is `decode`. -/
theorem judged_iff : Judged key bytes r ↔ decode key bytes = r := by
  rw [decode]
  constructor
  · intro h
    cases h with
    | malformed h =>
      cases hread : (Tree.parse? (Letters.ofBytes bytes)).bind ofTree? with
      | none => rfl
      | some envelope => exact absurd (isIn_iff.mpr hread) (h envelope)
    | unsupportedFormat h hformat => rw [isIn_iff.mp h]; exact if_pos hformat
    | belongsTo h hformat hkey =>
      rw [isIn_iff.mp h]
      dsimp only
      rw [if_neg (not_not_intro hformat), if_pos hkey]
    | accepted h hformat hkey =>
      rw [isIn_iff.mp h]
      dsimp only
      rw [if_neg (not_not_intro hformat), if_neg (not_not_intro hkey)]
  · rintro rfl
    cases hread : (Tree.parse? (Letters.ofBytes bytes)).bind ofTree? with
    | none => exact .malformed fun envelope h =>
        Option.some_ne_none envelope ((isIn_iff.mp h).symm.trans hread)
    | some envelope =>
      have h := isIn_iff.mpr hread
      dsimp only
      by_cases hformat : envelope.format = recordFormat
      · rw [if_neg (not_not_intro hformat)]
        by_cases hkey : envelope.key = key
        · rw [if_neg (not_not_intro hkey)]
          exact .accepted h hformat hkey
        · rw [if_pos hkey]
          exact .belongsTo h hformat hkey
      · rw [if_pos hformat]
        exact .unsupportedFormat h hformat

/-- The verdict is `.ok v` if and only if `bytes` are an envelope with `recordFormat`, `key` and the
state `v`. -/
theorem Judged.accepted_iff (h : Judged key bytes r) {v : Value} :
    r = .ok v ↔ ∃ envelope : Envelope, envelope.IsIn bytes ∧ envelope.format = recordFormat ∧
      envelope.key = key ∧ envelope.state = v := by
  constructor
  · rintro rfl
    cases h with
    | accepted h hformat hkey => exact ⟨_, h, hformat, hkey, rfl⟩
  · rintro ⟨envelope, hin, hformat, hkey, rfl⟩
    exact (judged_iff.mp h).symm.trans (judged_iff.mp (.accepted hin hformat hkey))

/-- Bytes that are `.ok` under `key` are `.belongsTo key` under any other key. -/
theorem Judged.other {v : Value} (h : Judged key bytes (.ok v)) {other : Key} (hne : other ≠ key) :
    Judged other bytes (.error (.belongsTo key)) := by
  obtain ⟨envelope, hin, hformat, rfl, -⟩ := h.accepted_iff.mp rfl
  exact .belongsTo hin hformat hne.symm

end Envelope

/-! ## Readers -/

/-- A verdict with the state decoded by `codec`. -/
def Codec.read {σ : Type} (codec : Codec σ) (r : Except RecordFault Value) : Except RecordFault σ :=
  r.bind fun v => match codec.decode v with
    | some state => .ok state
    | none => .error .unreadableState

namespace Store

variable {σ : Type} {codec : Codec σ} {s : Store} {key : Key} {bytes : ByteArray}
  {r : Except RecordFault Value}

theorem stateOf_eq_read (codec : Codec σ) (key : Key) (bytes : ByteArray) :
    stateOf codec key bytes = codec.read (Envelope.decode key bytes) := rfl

/-- What `Store.inspect` and `Store.activate` do with a record whose verdict is `r`. -/
structure JudgesAlike (codec : Codec σ) (key : Key) (r : Except RecordFault Value) (s : Store) :
    Prop where
  /-- `inspect` answers `r`, and changes nothing. -/
  inspect : exec (inspect key) s = (r.mapError (.deserialization key), s.called s.backend)
  /-- `activate` answers the state, and changes nothing. -/
  activate : ∀ state, codec.read r = .ok state →
    exec (activate codec key) s = (.ok state, s.called s.backend)
  /-- `activate` answers the fault, after it deleted the record of `key` and no other. -/
  discard : ∀ fault, codec.read r = .error fault → ∃ s',
    exec (Store.activate codec key) s = (.error (.deserialization key fault), s') ∧
      s'.contents = Function.update s.contents key none

theorem judgesAlike (hopen : s.Open) (hc : s.contents key = some bytes)
    (h : Envelope.Judged key bytes r) (codec : Codec σ) : s.JudgesAlike codec key r := by
  obtain rfl := Envelope.judged_iff.mp h
  refine ⟨?_, fun state hstate => hopen.exec_activate hc ((stateOf_eq_read ..).trans hstate),
    fun fault hfault => ?_⟩
  · rw [Store.inspect, exec_bind_ok (hopen.exec_bytesOf hc)]
    cases Envelope.decode key bytes <;> rfl
  · obtain ⟨s', hactivate, -, hcontents⟩ := hopen.exec_activate_error hc ((stateOf_eq_read ..).trans hfault)
    exact ⟨s', hactivate, hcontents⟩

/-- If the deletion fails, `activate` answers that failure, and the record stays. -/
theorem exec_activate_refused {fault : RecordFault} {e : StoreError} (hc : s.contents key = some bytes)
    (hget : s.fault s.calls (.get key) = none)
    (hdelete : s.fault (s.calls + 1) (.delete key) = some e)
    (hfault : stateOf codec key bytes = .error fault) :
    ∃ s', exec (activate codec key) s = (.error (.store e), s') ∧ s'.backend = s.backend := by
  have hread : exec (get key) s = (.ok (some bytes), s.called s.backend) := by
    rw [exec_get, hget]
    exact congrArg (·, s.called s.backend) (Backend.get_of_contents hc)
  have hbytes : exec (bytesOf key) s = (.ok bytes, s.called s.backend) := by
    rw [bytesOf, exec_bind, exec_lifted, hread]
    rfl
  have hrefused : exec (lifted (delete key)) (s.called s.backend) =
      (.error (.store e), (s.called s.backend).called s.backend) := by
    have hdeleted := exec_delete (s.called s.backend) key
    rw [show (s.called s.backend).fault (s.called s.backend).calls (.delete key) = some e from hdelete]
      at hdeleted
    rw [exec_lifted, hdeleted]
    rfl
  refine ⟨(s.called s.backend).called s.backend, ?_, rfl⟩
  rw [activate, exec_bind_ok hbytes, hfault]
  exact exec_bind_error hrefused

/-- For any bytes under any key there is one verdict `r`. It is `.ok` if and only if they are an
envelope of `recordFormat` and of `key`, and then it is `.belongsTo key` under every other key.
`Store.inspect` and `Store.activate` answer by the same `r`, for every codec; `inspect` never
deletes, and `activate` deletes the record exactly if it answers a fault. If that deletion fails,
the failure is the answer, and the record stays. -/
theorem judging (codec : Codec σ) (key : Key) (bytes : ByteArray) :
    ∃ r, Envelope.Judged key bytes r ∧
      (∀ v, r = .ok v ↔ ∃ envelope : Envelope, envelope.IsIn bytes ∧
        envelope.format = recordFormat ∧ envelope.key = key ∧ envelope.state = v) ∧
      (∀ s : Store, s.Open → s.contents key = some bytes → s.JudgesAlike codec key r) ∧
      (∀ v other (s : Store), r = .ok v → other ≠ key → s.Open → s.contents other = some bytes →
        s.JudgesAlike codec other (.error (.belongsTo key))) ∧
      ∀ (s : Store) fault e, s.contents key = some bytes → s.fault s.calls (.get key) = none →
        s.fault (s.calls + 1) (.delete key) = some e → codec.read r = .error fault →
        ∃ s', exec (activate codec key) s = (.error (.store e), s') ∧ s'.backend = s.backend := by
  have hjudged : Envelope.Judged key bytes (Envelope.decode key bytes) := Envelope.judged_iff.mpr rfl
  refine ⟨_, hjudged, fun v => hjudged.accepted_iff, fun s hopen hc => judgesAlike hopen hc hjudged codec,
    fun v other s hv hne hopen hc => ?_,
    fun s fault e hc hget hdelete hfault =>
      exec_activate_refused hc hget hdelete ((stateOf_eq_read ..).trans hfault)⟩
  rw [hv] at hjudged
  exact judgesAlike hopen hc (hjudged.other hne) codec

/-- A store with the envelope of `.ofNat 7` under `.ofNat 8`. -/
def misfiled : Store where
  backend := .memory ⟨[⟨.ofNat 8, ({ owner := "a" } : Cart).record (.ofNat 7) ⟨1⟩, ⟨1⟩⟩]⟩
  precedes _ _ := false

/-- `inspect` and `activate` of `.ofNat 8` answer `.belongsTo (.ofNat 7)`. -/
theorem judging_of_misfiled :
    (exec (inspect (.ofNat 8)) misfiled).1 = .error (.deserialization (.ofNat 8) (.belongsTo (.ofNat 7))) ∧
      (exec (activate Cart.codec (.ofNat 8)) misfiled).1 =
        .error (.deserialization (.ofNat 8) (.belongsTo (.ofNat 7))) := by
  obtain ⟨r, hjudged, -, -, hother, -⟩ :=
    judging Cart.codec (.ofNat 7) (({ owner := "a" } : Cart).record (.ofNat 7) ⟨1⟩)
  have hr := (Envelope.judged_iff.mp hjudged).symm.trans
    (({ owner := "a" } : Cart).decode_record (by decide) (by decide))
  have hc : misfiled.contents (.ofNat 8) = some (({ owner := "a" } : Cart).record (.ofNat 7) ⟨1⟩) := by
    simp [misfiled, contents, Backend.contents, Memory.get, Memory.find?]
  have halike := hother _ (.ofNat 8) misfiled hr (by decide) (fun _ _ => rfl) hc
  obtain ⟨s', hactivate, -⟩ := halike.discard _ rfl
  exact ⟨congrArg Prod.fst halike.inspect, congrArg Prod.fst hactivate⟩

end Store

end SessionCache
