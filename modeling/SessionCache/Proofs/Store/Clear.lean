import SessionCache.Proofs.Store.Calls

/-!
# Stores in which nothing is in the way

A store is clear for some keys if its gate lets every call pass and nothing in the backend is in the
way of a record of one of these keys. Then no call about such a key fails, and the store stays
clear. What else is in the backend does not matter: records of other keys, or files in a directory
that are no records.

* `Backend.Ready.put`, `Backend.Ready.delete`: the ways stay free.
* `Store.Clear.exec_holds`, `Store.Clear.exec_remove`, `Store.Clear.exec_passivate`: the operations
  on records.
-/

namespace SessionCache

/-! ## Folders -/

namespace Folder

variable {entries : FileEntries} {key other : Key}

/-- A `put` for one key keeps another one `Free`. -/
theorem Free.written (h : Free entries key) (other : Key) (bytes : ByteArray) (now : Instant) :
    Free (written other bytes now entries) key :=
  ⟨(h.record.filter _).setEntry _ _ _, (h.temporary.filter _).setEntry _ _ _⟩

theorem Free.filter (h : Free entries key) (name : FilePlace) :
    Free (entries.filter (·.1 ≠ name)) key := ⟨h.record.filter name, h.temporary.filter name⟩

theorem get_of_lookup_none (h : entries.lookup (.record key) = none) :
    (present entries).get key = .ok none ∧ (present entries).contains key = .ok false := by
  have hown : bondAt entries (.record key) = .own := by
    rw [bondAt, h]
    rfl
  have hreached : (present entries).reached (.record key) = .error .notFound := by
    rw [reached_of_own hown, h]
  constructor
  · simp only [get, hreached]
  · simp only [contains, hreached]

/-- `get` and `contains` pass at a record name that is neither a directory nor a link. -/
theorem get_of_isFree (h : IsFree entries (.record key))
    (hlink : ∀ target, bondAt entries (.record key) ≠ .link target) :
    (present entries).get key = .ok ((present entries).contents key) ∧
      (present entries).contains key = .ok ((present entries).contents key).isSome := by
  cases hlookup : entries.lookup (.record key) with
  | none =>
    rw [contents_eq_none_of_lookup hlookup]
    exact get_of_lookup_none hlookup
  | some content =>
    obtain ⟨hcontents, hsome⟩ := contents_of_lookup hlookup hlink fun size modified heq =>
      h size modified (heq ▸ hlookup)
    obtain ⟨bytes, hbytes⟩ := Option.isSome_iff_exists.mp hsome
    rw [hbytes] at hcontents
    rw [hcontents]
    exact ⟨get_of_contents hcontents, contains_of_contents hcontents⟩

end Folder

/-! ## Backends -/

namespace Backend

variable {b : Backend} {key other : Key}

theorem Ready.put (h : b.Ready key) (hother : b.Ready other) (now : Instant) (bytes : ByteArray) :
    (b.put now other bytes).2.Ready key := by
  cases b with
  | memory m => trivial
  | table t => trivial
  | directory path d =>
    obtain ⟨entries, hd, hfree⟩ := h
    obtain ⟨entries', hd', hotherFree⟩ := hother
    obtain rfl : entries' = entries := Folder.present.inj (hd'.symm.trans hd)
    have hput := Folder.put_present (Directory.secluded hd other) hotherFree now bytes
    rw [← hd] at hput
    exact ⟨_, congrArg Prod.snd hput, hfree.written other bytes now⟩

theorem Ready.delete (h : b.Ready key) (other : Key) : (b.delete other).2.Ready key := by
  cases b with
  | memory m => trivial
  | table t => trivial
  | directory path d =>
    obtain ⟨entries, hd, hfree⟩ := h
    obtain ⟨entries', _, hd', -, -, hdelete⟩ | ⟨hdelete, -⟩ | ⟨_, hdelete, -⟩ :=
      Folder.delete_cases d.folder other
    · obtain rfl : entries' = entries := Folder.present.inj (hd'.symm.trans hd)
      exact ⟨_, congrArg Prod.snd hdelete, hfree.filter _⟩
    · exact ⟨entries, (congrArg Prod.snd hdelete).trans hd, hfree⟩
    · exact ⟨entries, (congrArg Prod.snd hdelete).trans hd, hfree⟩

theorem Ready.get_eq (h : b.Ready key) : b.get key = .ok (b.contents key) := by
  cases b with
  | memory m => rfl
  | table t => rfl
  | directory path d =>
    obtain ⟨entries, hd, hfree⟩ := h
    rw [Backend.get, Directory.get, Backend.contents, Directory.contents, hd]
    exact (Folder.get_of_isFree hfree.record (Directory.notLink hd key)).1

theorem Ready.contains_eq (h : b.Ready key) : b.contains key = .ok (b.contents key).isSome := by
  cases b with
  | memory m => simp [Backend.contains, Backend.contents, Memory.contains, Memory.get]
  | table t => simp [Backend.contains, Backend.contents, Table.contains, Table.get]
  | directory path d =>
    obtain ⟨entries, hd, hfree⟩ := h
    rw [Backend.contains, Directory.contains, Backend.contents, Directory.contents, hd]
    exact (Folder.get_of_isFree hfree.record (Directory.notLink hd key)).2

theorem Ready.delete_eq (h : b.Ready key) :
    ∃ found, (b.delete key).1 = .ok found := by
  cases b with
  | memory m => exact ⟨_, rfl⟩
  | table t => exact ⟨_, rfl⟩
  | directory path d =>
    obtain ⟨entries, hd, hfree⟩ := h
    have hcall : (d.folder.delete key).1 = ((Folder.present entries).delete key).1 := by rw [hd]
    rw [Backend.delete]
    dsimp only
    rw [Directory.delete_fst, hcall, Folder.delete]
    split
    · next hdirectory => exact absurd hdirectory (hfree.record _ _)
    · exact ⟨_, rfl⟩
    · exact ⟨_, rfl⟩

end Backend

/-! ## Stores -/

namespace Store

/-- `fault` lets every call pass, and every key in `ks` is `Ready`. -/
structure Clear (s : Store) (ks : Key → Prop) : Prop where
  gate : s.Open
  ready : ∀ key, ks key → s.backend.Ready key

namespace Clear

variable {s : Store} {ks : Key → Prop} {key : Key}

theorem called (h : s.Clear ks) : (s.called s.backend).Clear ks := ⟨h.gate, h.ready⟩

theorem exec_contains (h : s.Clear ks) (hkey : ks key) :
    exec (contains key) s = (.ok (s.contents key).isSome, s.called s.backend) :=
  h.gate.exec_contains (h.ready key hkey).get_eq (h.ready key hkey).contains_eq

theorem exec_holds (h : s.Clear ks) (hkey : ks key) :
    exec (holds key) s = (.ok (s.contents key).isSome, s.called s.backend) := by
  rw [holds, exec_lifted, h.exec_contains hkey]
  rfl

theorem exec_remove (h : s.Clear ks) (hkey : ks key) :
    ∃ found s', exec (remove key) s = (.ok found, s') ∧ s'.Clear ks ∧
      s'.contents = Function.update s.contents key none := by
  obtain ⟨found, hfound⟩ := (h.ready key hkey).delete_eq
  have hdelete : exec (delete key) s = (.ok found, s.called (s.backend.delete key).2) := by
    rw [exec_delete, h.gate]
    exact Prod.ext hfound rfl
  refine ⟨found, s.called (s.backend.delete key).2, ?_,
    ⟨h.gate, fun other hother => (h.ready other hother).delete key⟩, (delete_contents hdelete).2.1⟩
  rw [remove, exec_lifted, hdelete]
  rfl

theorem exec_passivate {σ : Type} {codec : Codec σ} (h : s.Clear ks) (hkey : ks key) (now : Instant)
    {state : σ} {value : Json.Value} (hvalue : codec.encode state = .ok value) :
    ∃ s', exec (passivate codec now key state) s = (.ok (), s') ∧ s'.Clear ks ∧
      s'.contents = Function.update s.contents key (some (Envelope.encode key now value)) := by
  rcases hb : s.backend.put now key (Envelope.encode key now value) with ⟨r, b⟩
  obtain rfl : r = .ok () :=
    (congrArg Prod.fst hb).symm.trans (Backend.put_of_ready (h.ready key hkey) now _)
  have hready : ∀ other, ks other → b.Ready other := fun other hother => by
    have := (h.ready other hother).put (h.ready key hkey) now (Envelope.encode key now value)
    rwa [hb] at this
  refine ⟨s.called b, ?_, ⟨h.gate, hready⟩, Backend.contents_put hb⟩
  rw [passivate, hvalue]
  dsimp only
  rw [exec_lifted, exec_put, h.gate, hb]
  rfl

end Clear

end Store

end SessionCache
