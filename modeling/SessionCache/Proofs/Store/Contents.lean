import SessionCache.Proofs.Store.Folder
import SessionCache.Store.Backend

/-!
# What a backend holds

The three kinds of backends keep their records in different ways. `Backend.contents` is the map
from keys to bytes that all of them stand for, and the five calls are stated in terms of it,
whatever else is in the directory or in the table.

* `Backend.contents_put`, `Backend.contents_delete`: a call that succeeds changes the contents of
  its key and nothing else.
* `Backend.contents_put_error`, `Backend.contents_delete_error`: a call that fails changes nothing
  there, and only a record that is not there can fail to be deleted.
* `Backend.get_eq`, `Backend.contains_eq`: the two that only look answer with the contents.
* `Backend.put_of_ready`, `Backend.get_of_contents`, `Backend.contains_of_contents`,
  `Backend.delete_of_contents`: when a call does not fail.
-/

namespace SessionCache

namespace Directory

variable {d d' : Directory} {now : Instant} {key : Key} {bytes : ByteArray}

theorem secluded {entries : FileEntries} (h : d.folder = .present entries) (key : Key) :
    Folder.Secluded entries key := by
  have hapart := d.apart
  rw [h] at hapart
  exact hapart.secluded key

theorem notLink {entries : FileEntries} (h : d.folder = .present entries) (key : Key)
    (target : Option FilePlace) : Folder.bondAt entries (.record key) ≠ .link target := by
  have hapart := d.apart
  rw [h] at hapart
  exact (hapart key).2 target

/-- `Folder.contents`. -/
def contents (d : Directory) : Key → Option ByteArray := d.folder.contents

theorem contents_put (h : d.put now key bytes = (.ok (), d')) :
    d'.contents = Function.update d.contents key (some bytes) := by
  obtain ⟨hok, rfl⟩ := Prod.mk.inj h
  exact Folder.contents_put (d.apart.secluded key) (Prod.ext hok rfl)

theorem contents_put_error {e : StoreError} (h : d.put now key bytes = (.error e, d')) :
    d'.contents = d.contents := by
  obtain ⟨herror, rfl⟩ := Prod.mk.inj h
  exact Folder.contents_put_error (d.apart.secluded key) (Prod.ext herror rfl)

theorem contents_delete {found : Bool} (h : d.delete key = (.ok found, d')) :
    d'.contents = Function.update d.contents key none ∧ found = (d.contents key).isSome := by
  obtain ⟨hfound, rfl⟩ := Prod.mk.inj h
  obtain ⟨entries, content, hd, hlookup, hfile, hdelete⟩ | ⟨hdelete, hnone⟩ | ⟨cause, hdelete, -⟩ :=
    Folder.delete_cases d.folder key <;> rw [hdelete] at hfound <;> cases hfound
  · obtain ⟨hcontents, hsome⟩ := Folder.contents_of_lookup hlookup (notLink hd key) hfile
    dsimp only [contents]
    rw [hdelete, hd, hcontents, hsome]
    exact ⟨Folder.contents_filter (secluded hd key), rfl⟩
  · dsimp only [contents]
    rw [hdelete, hnone]
    exact ⟨(Function.update_eq_self_iff.mpr hnone.symm).symm, rfl⟩

theorem contents_delete_error {e : StoreError} (h : d.delete key = (.error e, d')) :
    d' = d ∧ d.contents key = none := by
  obtain ⟨herror, rfl⟩ := Prod.mk.inj h
  obtain ⟨_, _, -, -, -, hdelete⟩ | ⟨hdelete, -⟩ | ⟨cause, hdelete, hnone⟩ :=
    Folder.delete_cases d.folder key <;> rw [hdelete] at herror <;> cases herror
  exact ⟨Directory.ext (congrArg Prod.snd hdelete), hnone⟩

theorem delete_of_contents (h : d.contents key = some bytes) : (d.delete key).1 = .ok true := by
  obtain ⟨_, -, hdelete⟩ := Folder.delete_of_contents h
  exact congrArg Prod.fst hdelete

end Directory

namespace Table

@[simp, grind =]
theorem get_put (t : Table) (now : Instant) (key other : Key) (bytes : ByteArray) :
    (t.put now key bytes).get other = if other = key then some bytes else t.get other := by
  rw [get, find?, put, insert,
    Assoc.find?_replace Row.key t.rows ⟨key.text, bytes, Timestamp.numericText now⟩]
  simp only [Key.text_inj]
  split <;> rfl

@[simp, grind =]
theorem get_delete (t : Table) (key other : Key) :
    (t.delete key).2.get other = if other = key then none else t.get other := by
  rw [get, find?, delete, Assoc.find?_filter_ne Row.key]
  simp only [Key.text_inj]
  split <;> rfl

end Table

namespace Backend

/-- The bytes that `get` reads under each key. -/
def contents : Backend → Key → Option ByteArray
  | .memory m => m.get
  | .directory _ d => d.contents
  | .table t => t.get

theorem contents_put {b b' : Backend} {now : Instant} {key : Key} {bytes : ByteArray}
    (h : b.put now key bytes = (.ok (), b')) :
    b'.contents = Function.update b.contents key (some bytes) := by
  cases b with
  | memory m =>
    cases h
    exact funext fun other => by simp [contents, Function.update_apply]
  | directory path d =>
    simp only [put] at h
    cases hd : d.put now key bytes with
    | mk r d' =>
      rw [hd] at h
      cases h
      exact Directory.contents_put hd
  | table t =>
    cases h
    exact funext fun other => by simp [contents, Function.update_apply]

theorem contents_put_error {b b' : Backend} {now : Instant} {key : Key} {bytes : ByteArray}
    {e : StoreError} (h : b.put now key bytes = (.error e, b')) : b'.contents = b.contents := by
  cases b with
  | memory m => cases h
  | directory path d =>
    simp only [put] at h
    cases hd : d.put now key bytes with
    | mk r d' =>
      rw [hd] at h
      cases h
      exact Directory.contents_put_error hd
  | table t => cases h

theorem contents_delete {b b' : Backend} {key : Key} {found : Bool}
    (h : b.delete key = (.ok found, b')) :
    b'.contents = Function.update b.contents key none ∧ found = (b.contents key).isSome := by
  cases b with
  | memory m =>
    cases h
    refine ⟨funext fun other => ?_, by simp [contents, Memory.get]⟩
    rw [Function.update_apply]
    exact Memory.get_delete m key other
  | directory path d =>
    simp only [delete] at h
    cases hd : d.delete key with
    | mk r d' =>
      rw [hd] at h
      cases h
      exact Directory.contents_delete hd
  | table t =>
    cases h
    refine ⟨funext fun other => ?_, by simp [contents, Table.get]⟩
    rw [Function.update_apply]
    exact Table.get_delete t key other

theorem contents_delete_error {b b' : Backend} {key : Key} {e : StoreError}
    (h : b.delete key = (.error e, b')) : b'.contents = b.contents ∧ b.contents key = none := by
  cases b with
  | memory m => cases h
  | directory path d =>
    simp only [delete] at h
    cases hd : d.delete key with
    | mk r d' =>
      rw [hd] at h
      cases h
      obtain ⟨rfl, hn⟩ := Directory.contents_delete_error hd
      exact ⟨rfl, hn⟩
  | table t => cases h

theorem get_eq {b : Backend} {key : Key} {r : Option ByteArray} (h : b.get key = .ok r) :
    r = b.contents key := by
  cases b with
  | memory m => cases h; rfl
  | directory path d => exact Folder.get_eq h
  | table t => cases h; rfl

theorem contains_eq {b : Backend} {key : Key} {found : Bool} (h : b.contains key = .ok found) :
    found = (b.contents key).isSome := by
  cases b with
  | memory m => cases h; simp [contents, Memory.contains, Memory.get]
  | directory path d => exact Folder.contains_eq h
  | table t => cases h; simp [contents, Table.contains, Table.get]

/-- `put` of `key` passes. -/
def Ready (b : Backend) (key : Key) : Prop :=
  match b with
  | .directory _ d => ∃ entries, d.folder = .present entries ∧ Folder.Free entries key
  | .memory _ | .table _ => True

theorem put_of_ready {b : Backend} {key : Key} (h : b.Ready key) (now : Instant)
    (bytes : ByteArray) : (b.put now key bytes).1 = .ok () := by
  cases b with
  | memory m => rfl
  | directory path d =>
    obtain ⟨entries, hd, hfree⟩ := h
    rw [put, Directory.put_fst, hd, Folder.put_present (Directory.secluded hd key) hfree]
  | table t => rfl

/-- `get` reads `contents`. -/
theorem get_of_contents {b : Backend} {key : Key} {bytes : ByteArray}
    (h : b.contents key = some bytes) : b.get key = .ok (some bytes) := by
  cases b with
  | memory m => exact congrArg Except.ok h
  | directory path d => exact Folder.get_of_contents h
  | table t => exact congrArg Except.ok h

/-- `contains` answers `true` where there are `contents`. -/
theorem contains_of_contents {b : Backend} {key : Key} {bytes : ByteArray}
    (h : b.contents key = some bytes) : b.contains key = .ok true := by
  cases b with
  | memory m =>
    obtain ⟨record, hrecord, -⟩ := Option.map_eq_some_iff.mp h
    rw [contains, Memory.contains, hrecord]
    rfl
  | directory path d => exact Folder.contains_of_contents h
  | table t =>
    obtain ⟨row, hrow, -⟩ := Option.map_eq_some_iff.mp h
    rw [contains, Table.contains, hrow]
    rfl

/-- `delete` answers `true` where there are `contents`. -/
theorem delete_of_contents {b : Backend} {key : Key} {bytes : ByteArray}
    (h : b.contents key = some bytes) : (b.delete key).1 = .ok true := by
  cases b with
  | memory m =>
    obtain ⟨record, hrecord, -⟩ := Option.map_eq_some_iff.mp h
    rw [delete, Memory.delete, hrecord]
    rfl
  | directory path d =>
    rw [delete]
    exact Directory.delete_of_contents h
  | table t =>
    obtain ⟨row, hrow, -⟩ := Option.map_eq_some_iff.mp h
    rw [delete, Table.delete, hrow]
    rfl

end Backend

end SessionCache
