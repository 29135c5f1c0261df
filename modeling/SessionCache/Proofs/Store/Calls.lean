import SessionCache.Proofs.Exec
import SessionCache.Proofs.Store.Contents

/-!
# What the operations on records do

Each operation of the store in terms of `Store.contents`, the bytes under each key: what it answers,
and what is there afterwards. The gate before the backend stays as it is (`Store.SameGate`).

* `Store.exec_remove`, `Store.exec_holds`, `Store.exec_passivate`, `Store.exec_activate`: one
  statement for each operation, with a case for each way in which it ends.
* `Store.Open.exec_passivate`, `Store.Open.exec_activate`: the same behind a gate that lets every
  call pass, where a record that is there can be read and deleted.
* `Store.exec_purgeOlderThan`: a purge only takes records away.
-/

namespace SessionCache

namespace Store

/-- `Backend.contents` of the backend. -/
def contents (s : Store) : Key → Option ByteArray := s.backend.contents

/-- `fault` is the same, and calls only went on. -/
structure SameGate (s s' : Store) : Prop where
  fault : s'.fault = s.fault
  precedes : s'.precedes = s.precedes
  containsByGet : s'.containsByGet = s.containsByGet
  calls : s.calls ≤ s'.calls

theorem SameGate.refl (s : Store) : SameGate s s := ⟨rfl, rfl, rfl, Nat.le_refl _⟩

theorem SameGate.trans {s s' s'' : Store} (h : SameGate s s') (h' : SameGate s' s'') :
    SameGate s s'' :=
  ⟨h'.fault.trans h.fault, h'.precedes.trans h.precedes,
    h'.containsByGet.trans h.containsByGet, Nat.le_trans h.calls h'.calls⟩

/-! ## The calls of the backend -/

/-- `s` after one more call, which left `backend`. -/
def called (s : Store) (backend : Backend) : Store := { s with backend, calls := s.calls + 1 }

theorem sameGate_called (s : Store) (backend : Backend) : SameGate s (s.called backend) :=
  ⟨rfl, rfl, rfl, Nat.le_succ _⟩

theorem exec_pass (s : Store) (call : StoreCall) :
    exec (pass call) s = match s.fault s.calls call with
      | some e => (.error e, s.called s.backend)
      | none => (.ok (), s.called s.backend) := by
  simp only [pass, exec_bind, exec_getThe, exec_set]
  cases s.fault s.calls call <;> rfl

@[simp] theorem exec_answer {α : Type} (result : Except StoreError α × Backend) (s : Store) :
    exec (answer result) s = (result.1, { s with backend := result.2 }) := by
  obtain ⟨r, b⟩ := result
  simp only [answer, exec_bind, exec_modifyThe]
  cases r <;> rfl

@[simp] theorem exec_reply {α : Type} (result : Except StoreError α) (s : Store) :
    exec (reply result) s = (result, s) := by
  cases result <;> rfl

theorem exec_put (s : Store) (now : Instant) (key : Key) (bytes : ByteArray) :
    exec (put now key bytes) s = match s.fault s.calls (.put key) with
      | some e => (.error e, s.called s.backend)
      | none => ((s.backend.put now key bytes).1, s.called (s.backend.put now key bytes).2) := by
  simp only [put, exec_bind, exec_pass]
  cases s.fault s.calls (.put key) with
  | some e => rfl
  | none => simp only [exec_getThe, exec_answer]; rfl

theorem exec_get (s : Store) (key : Key) :
    exec (get key) s = match s.fault s.calls (.get key) with
      | some e => (.error e, s.called s.backend)
      | none => (s.backend.get key, s.called s.backend) := by
  simp only [get, exec_bind, exec_pass]
  cases s.fault s.calls (.get key) with
  | some e => rfl
  | none => simp only [exec_getThe, exec_reply]; rfl

theorem exec_delete (s : Store) (key : Key) :
    exec (delete key) s = match s.fault s.calls (.delete key) with
      | some e => (.error e, s.called s.backend)
      | none => ((s.backend.delete key).1, s.called (s.backend.delete key).2) := by
  simp only [delete, exec_bind, exec_pass]
  cases s.fault s.calls (.delete key) with
  | some e => rfl
  | none => simp only [exec_getThe, exec_answer]; rfl

/-! ## The calls in terms of contents -/

theorem put_contents {s s' : Store} {now : Instant} {key : Key} {bytes : ByteArray}
    {r : Except StoreError Unit} (h : exec (put now key bytes) s = (r, s')) :
    SameGate s s' ∧
      s'.contents = match r with
        | .ok () => Function.update s.contents key (some bytes)
        | .error _ => s.contents := by
  rw [exec_put] at h
  split at h
  · cases h; exact ⟨sameGate_called _ _, rfl⟩
  · cases hb : s.backend.put now key bytes with
    | mk answer b =>
      rw [hb] at h
      cases h
      refine ⟨sameGate_called _ _, ?_⟩
      cases answer with
      | ok u => exact Backend.contents_put hb
      | error e => exact Backend.contents_put_error hb

theorem get_contents {s s' : Store} {key : Key} {r : Except StoreError (Option ByteArray)}
    (h : exec (get key) s = (r, s')) :
    SameGate s s' ∧ s'.contents = s.contents ∧ ∀ bytes?, r = .ok bytes? → bytes? = s.contents key := by
  rw [exec_get] at h
  split at h
  · cases h; exact ⟨sameGate_called _ _, rfl, fun _ h => nomatch h⟩
  · cases h; exact ⟨sameGate_called _ _, rfl, fun _ h => Backend.get_eq h⟩

/-- `Store.delete`: if it answers, `key` has no record afterwards, and the answer is whether it had
one; if it fails, the contents stay. -/
theorem delete_contents {s s' : Store} {key : Key} {r : Except StoreError Bool}
    (h : exec (delete key) s = (r, s')) :
    SameGate s s' ∧ match r with
      | .ok found =>
        s'.contents = Function.update s.contents key none ∧ found = (s.contents key).isSome
      | .error _ =>
        s'.contents = s.contents ∧
          (s.contents key ≠ none → s.fault s.calls (.delete key) ≠ none) := by
  rw [exec_delete] at h
  split at h
  · rename_i e hf
    cases h; exact ⟨sameGate_called _ _, rfl, fun _ => by rw [hf]; exact Option.some_ne_none e⟩
  · cases hb : s.backend.delete key with
    | mk answer b =>
      rw [hb] at h
      cases h
      refine ⟨sameGate_called _ _, ?_⟩
      cases answer with
      | ok found => exact Backend.contents_delete hb
      | error e =>
        obtain ⟨hc, hn⟩ := Backend.contents_delete_error hb
        exact ⟨hc, fun hs => absurd hn hs⟩

theorem contains_contents {s s' : Store} {key : Key} {r : Except StoreError Bool}
    (h : exec (contains key) s = (r, s')) :
    SameGate s s' ∧ s'.contents = s.contents ∧ ∀ b, r = .ok b → b = (s.contents key).isSome := by
  simp only [contains, exec_bind, exec_getThe] at h
  split at h
  · cases hg : exec (get key) s with
    | mk answer s₁ =>
      obtain ⟨hgate, hc, hr⟩ := get_contents hg
      rw [exec_bind, hg] at h
      cases answer with
      | ok bytes? =>
        cases h
        refine ⟨hgate, hc, fun b hb => ?_⟩
        cases hb
        rw [hr bytes? rfl]
      | error e => cases h; exact ⟨hgate, hc, fun _ hb => nomatch hb⟩
  · rw [exec_bind, exec_pass] at h
    split at h
    · rename_i hp
      split at hp
      · cases hp
      · cases hp
        simp only [exec_bind, exec_getThe, exec_reply] at h
        cases h
        exact ⟨sameGate_called _ _, rfl, fun b hb => Backend.contains_eq hb⟩
    · rename_i hp
      split at hp
      · cases hp; cases h; exact ⟨sameGate_called _ _, rfl, fun _ hb => nomatch hb⟩
      · cases hp

/-! ## Sessions -/

theorem exec_lifted {α : Type} (action : StoreM α) (s : Store) :
    exec (lifted action) s = ((exec action s).1.mapError .store, (exec action s).2) := rfl

theorem exec_remove {s s' : Store} {key : Key} {r : Except CacheError Bool}
    (h : exec (remove key) s = (r, s')) :
    SameGate s s' ∧
      ((∃ found, r = .ok found ∧ s'.contents = Function.update s.contents key none ∧
          found = (s.contents key).isSome) ∨
        ∃ e, r = .error (.store e) ∧ s'.contents = s.contents ∧
          (s.contents key ≠ none → s.fault s.calls (.delete key) ≠ none)) := by
  rw [remove, exec_lifted] at h
  cases hd : exec (delete key) s with
  | mk answer s₁ =>
    obtain ⟨hgate, hc⟩ := delete_contents hd
    rw [hd] at h
    cases answer with
    | ok found => cases h; exact ⟨hgate, .inl ⟨found, rfl, hc⟩⟩
    | error e => cases h; exact ⟨hgate, .inr ⟨e, rfl, hc⟩⟩

theorem exec_holds {s s' : Store} {key : Key} {r : Except CacheError Bool}
    (h : exec (holds key) s = (r, s')) :
    SameGate s s' ∧ s'.contents = s.contents ∧
      (r = .ok (s.contents key).isSome ∨ ∃ e, r = .error (.store e)) := by
  rw [holds, exec_lifted] at h
  cases hd : exec (contains key) s with
  | mk answer s₁ =>
    obtain ⟨hgate, hc, hr⟩ := contains_contents hd
    rw [hd] at h
    cases answer with
    | ok b => cases h; exact ⟨hgate, hc, .inl (congrArg _ (hr b rfl))⟩
    | error e => cases h; exact ⟨hgate, hc, .inr ⟨e, rfl⟩⟩

theorem exec_passivate {σ : Type} {codec : Codec σ} {s s' : Store} {now : Instant} {key : Key}
    {state : σ} {r : Except CacheError Unit}
    (h : exec (passivate codec now key state) s = (r, s')) :
    SameGate s s' ∧
      ((∃ value, r = .ok () ∧ codec.encode state = .ok value ∧
          s'.contents = Function.update s.contents key (some (Envelope.encode key now value))) ∨
        (∃ message, r = .error (.serialization key message) ∧
          codec.encode state = .error message ∧ s' = s) ∨
        ∃ e, r = .error (.store e) ∧ s'.contents = s.contents) := by
  unfold passivate at h
  cases hv : codec.encode state with
  | error message =>
    rw [hv] at h
    cases h
    exact ⟨.refl s, .inr (.inl ⟨message, rfl, rfl, rfl⟩)⟩
  | ok value =>
    rw [hv] at h
    dsimp only at h
    rw [exec_lifted] at h
    cases hp : exec (put now key (Envelope.encode key now value)) s with
    | mk answer s₁ =>
      obtain ⟨hgate, hc⟩ := put_contents hp
      rw [hp] at h
      cases answer with
      | ok u => cases h; exact ⟨hgate, .inl ⟨value, rfl, rfl, hc⟩⟩
      | error e => cases h; exact ⟨hgate, .inr (.inr ⟨e, rfl, hc⟩)⟩

theorem exec_bytesOf {s s' : Store} {key : Key} {r : Except CacheError ByteArray}
    (h : exec (bytesOf key) s = (r, s')) :
    SameGate s s' ∧ s'.contents = s.contents ∧
      ((∃ bytes, r = .ok bytes ∧ s.contents key = some bytes) ∨
        (r = .error (.notFound key) ∧ s.contents key = none) ∨ ∃ e, r = .error (.store e)) := by
  rw [bytesOf, exec_bind, exec_lifted] at h
  cases hg : exec (get key) s with
  | mk answer s₁ =>
    obtain ⟨hgate, hc, hr⟩ := get_contents hg
    rw [hg] at h
    cases answer with
    | ok bytes? =>
      have hb := hr bytes? rfl
      cases bytes? with
      | some bytes => cases h; exact ⟨hgate, hc, .inl ⟨bytes, rfl, hb.symm⟩⟩
      | none => cases h; exact ⟨hgate, hc, .inr (.inl ⟨rfl, hb.symm⟩)⟩
    | error e => cases h; exact ⟨hgate, hc, .inr (.inr ⟨e, rfl⟩)⟩

theorem exec_activate {σ : Type} {codec : Codec σ} {s s' : Store} {key : Key}
    {r : Except CacheError σ} (h : exec (activate codec key) s = (r, s')) :
    SameGate s s' ∧
      ((∃ bytes state, r = .ok state ∧ s.contents key = some bytes ∧
          stateOf codec key bytes = .ok state ∧ s'.contents = s.contents) ∨
        (r = .error (.notFound key) ∧ s.contents key = none ∧ s'.contents = s.contents) ∨
        (∃ bytes fault, r = .error (.deserialization key fault) ∧ s.contents key = some bytes ∧
          stateOf codec key bytes = .error fault ∧
          s'.contents = Function.update s.contents key none) ∨
        ∃ e, r = .error (.store e) ∧ s'.contents = s.contents) := by
  rw [activate, exec_bind] at h
  cases hb : exec (bytesOf key) s with
  | mk answer s₁ =>
    obtain ⟨hgate, hc, ⟨bytes, rfl, hk⟩ | ⟨rfl, hk⟩ | ⟨e, rfl⟩⟩ := exec_bytesOf hb
    · rw [hb] at h
      dsimp only at h
      cases hs : stateOf codec key bytes with
      | ok state =>
        rw [hs] at h
        cases h
        exact ⟨hgate, .inl ⟨bytes, state, rfl, hk, hs, hc⟩⟩
      | error fault =>
        rw [hs] at h
        dsimp only at h
        rw [exec_bind, exec_lifted] at h
        cases hd : exec (delete key) s₁ with
        | mk deleted s₂ =>
          obtain ⟨hgate', hc'⟩ := delete_contents hd
          rw [hd] at h
          cases deleted with
          | ok found =>
            cases h
            exact ⟨hgate.trans hgate', .inr (.inr (.inl ⟨bytes, fault, rfl, hk, hs, hc ▸ hc'.1⟩))⟩
          | error e =>
            cases h
            exact ⟨hgate.trans hgate', .inr (.inr (.inr ⟨e, rfl, hc'.1.trans hc⟩))⟩
    · rw [hb] at h
      cases h
      exact ⟨hgate, .inr (.inl ⟨rfl, hk, hc⟩)⟩
    · rw [hb] at h
      cases h
      exact ⟨hgate, .inr (.inr (.inr ⟨e, rfl, hc⟩))⟩

/-- `Store.activate` of a key without record answers `.notFound`, or the failure of `get`, after one
call. -/
theorem exec_activate_of_none {σ : Type} {codec : Codec σ} {s : Store} {key : Key}
    (hn : s.contents key = none) :
    exec (activate codec key) s =
      (match (exec (get key) s).1 with
        | .ok _ => .error (.notFound key)
        | .error e => .error (.store e),
      s.called s.backend) := by
  rcases hg : exec (get key) s with ⟨r, s₁⟩
  obtain ⟨-, -, hr⟩ := get_contents hg
  have hs₁ : s₁ = s.called s.backend := by
    rw [exec_get] at hg
    split at hg <;> cases hg <;> rfl
  subst hs₁
  have hget : exec (lifted (get key)) s = (r.mapError .store, s.called s.backend) := by
    rw [exec_lifted, hg]
  rw [activate, bytesOf]
  cases r with
  | error e => rw [exec_bind_error (exec_bind_error hget)]
  | ok bytes? =>
    obtain rfl : bytes? = none := (hr bytes? rfl).trans hn
    rw [exec_bind_error ((exec_bind_ok hget).trans (exec_throw _ _))]

theorem exec_inspect {s s' : Store} {key : Key} {r : Except CacheError Json.Value}
    (h : exec (inspect key) s = (r, s')) :
    SameGate s s' ∧ s'.contents = s.contents ∧
      ((∃ bytes value, r = .ok value ∧ s.contents key = some bytes ∧
          Envelope.decode key bytes = .ok value) ∨
        (r = .error (.notFound key) ∧ s.contents key = none) ∨
        (∃ bytes fault, r = .error (.deserialization key fault) ∧ s.contents key = some bytes ∧
          Envelope.decode key bytes = .error fault) ∨
        ∃ e, r = .error (.store e)) := by
  rw [inspect, exec_bind] at h
  cases hb : exec (bytesOf key) s with
  | mk answer s₁ =>
    obtain ⟨hgate, hc, ⟨bytes, rfl, hk⟩ | ⟨rfl, hk⟩ | ⟨e, rfl⟩⟩ := exec_bytesOf hb
    · rw [hb] at h
      dsimp only at h
      cases hs : Envelope.decode key bytes with
      | ok value =>
        rw [hs] at h
        cases h
        exact ⟨hgate, hc, .inl ⟨bytes, value, rfl, hk, hs⟩⟩
      | error fault =>
        rw [hs] at h
        cases h
        exact ⟨hgate, hc, .inr (.inr (.inl ⟨bytes, fault, rfl, hk, hs⟩))⟩
    · rw [hb] at h
      cases h
      exact ⟨hgate, hc, .inr (.inl ⟨rfl, hk⟩)⟩
    · rw [hb] at h
      cases h
      exact ⟨hgate, hc, .inr (.inr (.inr ⟨e, rfl⟩))⟩

/-! ## Behind an open gate -/

section Open

variable {σ : Type} {codec : Codec σ} {s : Store} {key : Key} {bytes : ByteArray}

/-- `fault` lets every call pass. -/
def Open (s : Store) : Prop := ∀ n call, s.fault n call = none

theorem Open.called (h : s.Open) (backend : Backend) : (s.called backend).Open := h

theorem Open.exec_get (h : s.Open) (hc : s.contents key = some bytes) :
    exec (get key) s = (.ok (some bytes), s.called s.backend) := by
  rw [Store.exec_get, h, Backend.get_of_contents hc]

/-- `Store.contains` is the same by `get` and by `contains`. -/
theorem Open.exec_contains (h : s.Open) (hget : s.backend.get key = .ok (s.contents key))
    (hcontains : s.backend.contains key = .ok (s.contents key).isSome) :
    exec (contains key) s = (.ok (s.contents key).isSome, s.called s.backend) := by
  rw [contains, exec_bind_ok (exec_getThe _)]
  split
  · have hfound : exec (get key) s = (.ok (s.contents key), s.called s.backend) := by
      rw [Store.exec_get, h, hget]
    rw [exec_bind_ok hfound, exec_pure]
  · have hpass : exec (pass (.contains key)) s = (.ok (), s.called s.backend) := by
      rw [exec_pass, h]
    rw [exec_bind_ok hpass, exec_bind_ok (exec_getThe _), exec_reply]
    exact congrArg (·, s.called s.backend) hcontains

theorem Open.exec_holds (h : s.Open) (hc : s.contents key = some bytes) :
    exec (holds key) s = (.ok true, s.called s.backend) := by
  have hget : s.backend.get key = .ok (s.contents key) := hc ▸ Backend.get_of_contents hc
  have hcontains : s.backend.contains key = .ok (s.contents key).isSome := by
    rw [hc]
    exact Backend.contains_of_contents hc
  rw [holds, exec_lifted, h.exec_contains hget hcontains, hc]
  rfl

theorem Open.exec_bytesOf (h : s.Open) (hc : s.contents key = some bytes) :
    exec (bytesOf key) s = (.ok bytes, s.called s.backend) := by
  rw [bytesOf, exec_bind, exec_lifted, h.exec_get hc]
  rfl

/-- `Store.passivate` of a `Ready` key answers `.ok`, and its record is the envelope of the
state. -/
theorem Open.exec_passivate (h : s.Open) (hready : s.backend.Ready key) (now : Instant) {state : σ}
    {value : Json.Value} (hvalue : codec.encode state = .ok value) :
    ∃ s', exec (passivate codec now key state) s = (.ok (), s') ∧ s'.Open ∧
      s'.contents = Function.update s.contents key (some (Envelope.encode key now value)) := by
  rcases hb : s.backend.put now key (Envelope.encode key now value) with ⟨r, b⟩
  obtain rfl : r = .ok () :=
    (congrArg Prod.fst hb).symm.trans (Backend.put_of_ready hready now _)
  refine ⟨s.called b, ?_, h, Backend.contents_put hb⟩
  rw [passivate, hvalue]
  dsimp only
  rw [exec_lifted, exec_put, h, hb]
  rfl

/-- `Store.activate` answers the state in the record, which stays. -/
theorem Open.exec_activate (h : s.Open) (hc : s.contents key = some bytes) {state : σ}
    (hstate : stateOf codec key bytes = .ok state) :
    exec (activate codec key) s = (.ok state, s.called s.backend) := by
  rw [activate, exec_bind_ok (h.exec_bytesOf hc), hstate]
  rfl

/-- `Store.activate` of a record without a state deletes it and answers `.deserialization`. -/
theorem Open.exec_activate_error (h : s.Open) (hc : s.contents key = some bytes)
    {fault : RecordFault} (hstate : stateOf codec key bytes = .error fault) :
    ∃ s', exec (activate codec key) s = (.error (.deserialization key fault), s') ∧ s'.Open ∧
      s'.contents = Function.update s.contents key none := by
  have hdelete : exec (delete key) (s.called s.backend) =
      (.ok true, (s.called s.backend).called (s.backend.delete key).2) := by
    rw [exec_delete, h.called]
    exact Prod.ext (Backend.delete_of_contents hc) rfl
  refine ⟨(s.called s.backend).called (s.backend.delete key).2, ?_, h, (delete_contents hdelete).2.1⟩
  rw [activate, exec_bind_ok (h.exec_bytesOf hc), hstate]
  dsimp only
  rw [exec_bind, exec_lifted, hdelete]
  rfl

theorem Open.exec_inspect (h : s.Open) (hc : s.contents key = some bytes) {value : Json.Value}
    (hvalue : Envelope.decode key bytes = .ok value) :
    exec (inspect key) s = (.ok value, s.called s.backend) := by
  rw [inspect, exec_bind_ok (h.exec_bytesOf hc), hvalue]
  rfl

end Open

/-! ## Purging -/

/-- `g` is `f` without some records. -/
def Fewer (f g : Key → Option ByteArray) : Prop := ∀ key, g key = f key ∨ g key = none

theorem Fewer.refl (f : Key → Option ByteArray) : Fewer f f := fun _ => .inl rfl

theorem Fewer.trans {f g h : Key → Option ByteArray} (hfg : Fewer f g) (hgh : Fewer g h) :
    Fewer f h := fun key => by
  rcases hgh key with hk | hk
  · rw [hk]; exact hfg key
  · exact .inr hk

theorem fewer_update (f : Key → Option ByteArray) (key : Key) :
    Fewer f (Function.update f key none) := fun other => by
  rw [Function.update_apply]
  split
  · exact .inr rfl
  · exact .inl rfl

theorem delete_fewer {s s' : Store} {key : Key} {r : Except StoreError Bool}
    (h : exec (delete key) s = (r, s')) : SameGate s s' ∧ Fewer s.contents s'.contents := by
  obtain ⟨hgate, hc⟩ := delete_contents h
  cases r with
  | ok found => exact ⟨hgate, hc.1 ▸ fewer_update _ _⟩
  | error e => exact ⟨hgate, hc.1 ▸ .refl _⟩

theorem exec_list {s s' : Store} {r : Except StoreError (List RecordMeta)}
    (h : exec list s = (r, s')) : SameGate s s' ∧ s'.contents = s.contents := by
  rw [list, exec_bind, exec_pass] at h
  split at h
  · rename_i hp
    split at hp
    · cases hp
    · cases hp
      simp only [exec_bind, exec_getThe, exec_reply, called] at h
      cases hb : s.backend.list <;> rw [hb] at h <;> cases h <;>
        exact ⟨sameGate_called s s.backend, rfl⟩
  · rename_i hp
    split at hp
    · cases hp; cases h; exact ⟨sameGate_called _ _, rfl⟩
    · cases hp

theorem exec_purge {cutoff : Instant} {metas : List RecordMeta} {s s' : Store}
    {r : Except StoreError (List Key)} (h : exec (purge cutoff metas) s = (r, s')) :
    SameGate s s' ∧ Fewer s.contents s'.contents := by
  induction metas generalizing s r with
  | nil => cases h; exact ⟨.refl _, .refl _⟩
  | cons m rest ih =>
    have htail : ∀ {s₁ : Store} {purged : Bool},
        exec (do
          let others ← purge cutoff rest
          return if purged then m.key :: others else others) s₁ = (r, s') →
        SameGate s₁ s' ∧ Fewer s₁.contents s'.contents := by
      intro s₁ purged h₁
      rw [exec_bind] at h₁
      cases h₂ : exec (purge cutoff rest) s₁ with
      | mk r₂ s₂ =>
        rw [h₂] at h₁
        cases r₂ <;> cases h₁ <;> exact ih h₂
    rw [purge] at h
    split at h
    · rw [exec_bind] at h
      cases hd : exec (delete m.key) s with
      | mk r₁ s₁ =>
        obtain ⟨hgate, hfewer⟩ := delete_fewer hd
        rw [hd] at h
        cases r₁ with
        | error e => cases h; exact ⟨hgate, hfewer⟩
        | ok purged =>
          obtain ⟨hgate', hfewer'⟩ := htail h
          exact ⟨hgate.trans hgate', hfewer.trans hfewer'⟩
    · exact htail h

theorem exec_purgeOlderThan {cutoff : Instant} {s s' : Store} {r : Except CacheError (List Key)}
    (h : exec (purgeOlderThan cutoff) s = (r, s')) :
    SameGate s s' ∧ Fewer s.contents s'.contents ∧ ∀ e, r = .error e → ∃ e', e = .store e' := by
  rw [purgeOlderThan, exec_bind, records, exec_lifted] at h
  cases hl : exec list s with
  | mk listed s₁ =>
    obtain ⟨hgate, hc⟩ := exec_list hl
    rw [hl] at h
    cases listed with
    | error e => cases h; exact ⟨hgate, hc ▸ .refl _, fun _ he => ⟨e, by cases he; rfl⟩⟩
    | ok metas =>
      dsimp only [Except.mapError] at h
      rw [exec_lifted] at h
      cases hp : exec (purge cutoff metas) s₁ with
      | mk purged s₂ =>
        obtain ⟨hgate', hfewer⟩ := exec_purge hp
        rw [hp] at h
        cases purged with
        | error e =>
          cases h
          exact ⟨hgate.trans hgate', hc ▸ hfewer, fun _ he => ⟨e, by cases he; rfl⟩⟩
        | ok keys => cases h; exact ⟨hgate.trans hgate', hc ▸ hfewer, fun _ he => nomatch he⟩

end Store

end SessionCache
