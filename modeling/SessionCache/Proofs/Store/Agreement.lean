import Mathlib.Data.Finmap
import SessionCache.Proofs.Store.Holding

/-!
# Backends agree

Every backend that starts empty, and that nobody else writes to, is one and the same map: from keys
to bytes with the time of the last writing (`RecordMap`). It gives the answers of that map to any
calls in any order. There is one exception: a table writes the year of a time as it is, but reads
only years of four digits, and cannot be listed while a record of another year is in it.

* `Backend.serve`, `RecordMap.serve`: one call, of the backend and of the map.
* `Backend.Mirrors.serve`: a call keeps a backend and its map in step.
* `Backend.agreement`: the same after any calls.
-/

namespace SessionCache

/-! ## Calls and answers -/

/-- A call of a backend with its arguments. -/
inductive BackendCall where
  | put (now : Instant) (key : Key) (bytes : ByteArray)
  | get (key : Key)
  | delete (key : Key)
  | contains (key : Key)
  | list

/-- The answer to a call. Two listings are equal if they differ in order only. -/
inductive BackendAnswer where
  | written
  | bytes (bytes? : Option ByteArray)
  | found (there : Bool)
  | records (metas : Multiset RecordMeta)

/-- The specification: a finite map from keys to bytes and the time of writing. -/
abbrev RecordMap := Finmap fun _ : Key => ByteArray × Instant

namespace RecordMap

/-- The answer of the map to a call, and the map after it. -/
def serve (m : RecordMap) : BackendCall → BackendAnswer × RecordMap
  | .put now key bytes => (.written, m.insert key (bytes, now))
  | .get key => (.bytes ((m.lookup key).map (·.1)), m)
  | .delete key => (.found (m.lookup key).isSome, m.erase key)
  | .contains key => (.found (m.lookup key).isSome, m)
  | .list =>
    (.records (m.entries.map fun e => { key := e.1, size := e.2.1.size, storedAt := e.2.2 }), m)

/-- The map after `calls`. -/
def after (m : RecordMap) (calls : List BackendCall) : RecordMap :=
  calls.foldl (fun m call => (m.serve call).2) m

/-- Every time is in a year of four digits. -/
def Dated (m : RecordMap) : Prop :=
  ∀ key record, m.lookup key = some record → Timestamp.HasShortYear record.2

theorem dated_empty : Dated ∅ := fun key record h => by
  rw [Finmap.lookup_empty] at h
  cases h

theorem Dated.put {m : RecordMap} (h : m.Dated) {now : Instant} (hnow : Timestamp.HasShortYear now)
    (key : Key) (bytes : ByteArray) : Dated (m.insert key (bytes, now)) := by
  intro other record hrecord
  by_cases ho : other = key
  · subst ho
    rw [Finmap.lookup_insert] at hrecord
    cases hrecord
    exact hnow
  · rw [Finmap.lookup_insert_of_ne m ho] at hrecord
    exact h other record hrecord

theorem Dated.delete {m : RecordMap} (h : m.Dated) (key : Key) : Dated (m.erase key) := by
  intro other record hrecord
  by_cases ho : other = key
  · subst ho
    rw [Finmap.lookup_erase] at hrecord
    cases hrecord
  · rw [Finmap.lookup_erase_ne ho] at hrecord
    exact h other record hrecord

/-- Every `put` is at a time in a year of four digits. -/
def WrittenInShortYears (calls : List BackendCall) : Prop :=
  ∀ now key bytes, .put now key bytes ∈ calls → Timestamp.HasShortYear now

theorem Dated.after {m : RecordMap} (h : m.Dated) {calls : List BackendCall}
    (hcalls : WrittenInShortYears calls) : (m.after calls).Dated := by
  induction calls generalizing m with
  | nil => exact h
  | cons call rest ih =>
    have hrest : WrittenInShortYears rest := fun now key bytes hmem =>
      hcalls now key bytes (List.mem_cons_of_mem _ hmem)
    refine ih ?_ hrest
    cases call with
    | put now key bytes => exact h.put (hcalls now key bytes List.mem_cons_self) key bytes
    | delete key => exact h.delete key
    | get key => exact h
    | contains key => exact h
    | list => exact h

end RecordMap

namespace Backend

/-- The answer of the backend to a call, and the backend after it. -/
def serve (b : Backend) : BackendCall → Except StoreError BackendAnswer × Backend
  | .put now key bytes => ((b.put now key bytes).1.map fun _ => .written, (b.put now key bytes).2)
  | .get key => ((b.get key).map .bytes, b)
  | .delete key => ((b.delete key).1.map .found, (b.delete key).2)
  | .contains key => ((b.contains key).map .found, b)
  | .list => (b.list.map fun metas => .records metas, b)

/-- The backend after `calls`. -/
def after (b : Backend) (calls : List BackendCall) : Backend :=
  calls.foldl (fun b call => (b.serve call).2) b

/-- An empty memory, an empty directory with a path that can be listed, or an empty table. -/
def IsBlank : Backend → Prop
  | .memory m => m = {}
  | .directory path d => path ≠ "" ∧ d = .empty
  | .table t => t = {}

end Backend

/-! ## Entries and the map -/

namespace Entries

/-- `l` lists the entries of `m`, each key once. -/
structure Mirrors (l : Entries) (m : RecordMap) : Prop where
  nodup : (l.map (·.1)).Nodup
  lookup : ∀ key, m.lookup key = l.lookup key

theorem Mirrors.empty : Mirrors [] ∅ := ⟨.nil, fun _ => rfl⟩

variable {l : Entries} {m : RecordMap}

theorem Mirrors.put (h : l.Mirrors m) (now : Instant) (key : Key) (bytes : ByteArray) :
    (l.put now key bytes).Mirrors (m.insert key (bytes, now)) where
  nodup := by
    have hnew : key ∉ (l.filter (·.1 ≠ key)).map (·.1) := by
      intro hmem
      obtain ⟨e, he, heq⟩ := List.mem_map.mp hmem
      simpa [heq] using (List.mem_filter.mp he).2
    rw [Entries.put, List.map_append, List.map_singleton]
    exact List.nodup_append.mpr ⟨Assoc.nodup_filter h.nodup _, List.nodup_singleton _,
      fun a ha b hb => by rw [List.mem_singleton.mp hb]; rintro rfl; exact hnew ha⟩
  lookup other := by
    rw [Entries.put, Assoc.lookup_replace]
    by_cases ho : other = key
    · subst ho
      simp
    · rw [Finmap.lookup_insert_of_ne m ho, h.lookup, if_neg ho]

theorem Mirrors.delete (h : l.Mirrors m) (key : Key) : (l.delete key).Mirrors (m.erase key) where
  nodup := Assoc.nodup_filter h.nodup _
  lookup other := by
    rw [Entries.delete, Assoc.lookup_filter_ne]
    by_cases ho : other = key
    · subst ho
      simp
    · rw [Finmap.lookup_erase_ne ho, h.lookup, if_neg ho]

theorem Mirrors.mem_iff (h : l.Mirrors m) (key : Key) (record : ByteArray × Instant) :
    (key, record) ∈ l ↔ m.lookup key = some record := by
  rw [h.lookup]
  exact ⟨Assoc.lookup_of_mem h.nodup, Assoc.mem_of_lookup⟩

/-- The listing of `l` is that of `m`, up to order. -/
theorem Mirrors.metas (h : l.Mirrors m) : (RecordMap.serve m .list).1 =
    .records ↑(l.map metaOf) := by
  have hentries : m.entries = ↑(l.map fun e => (⟨e.1, e.2⟩ : Sigma fun _ : Key => _)) := by
    refine (Multiset.Nodup.ext m.nodup_entries ?_).mpr fun e => ?_
    · refine Multiset.coe_nodup.mpr (List.Nodup.of_map (·.1) ?_)
      rw [List.map_map]
      exact h.nodup
    · obtain ⟨key, record⟩ := e
      rw [← Finmap.lookup_eq_some_iff, ← h.mem_iff, Multiset.mem_coe, List.mem_map]
      constructor
      · exact fun hmem => ⟨_, hmem, rfl⟩
      · rintro ⟨e, he, heq⟩
        cases heq
        exact he
  rw [RecordMap.serve, hentries, Multiset.map_coe, List.map_map]
  rfl

end Entries

namespace Backend

/-! ## Backends and the map -/

/-- `b` has exactly the entries `l`. A directory has a path that can be listed. -/
def Holds : Backend → Entries → Prop
  | .memory m, l => m = .ofEntries l
  | .directory path d, l => path ≠ "" ∧ d = .ofEntries l
  | .table t, l => t = .ofEntries l

/-- `b` has exactly the entries of `m`. -/
def Mirrors (b : Backend) (m : RecordMap) : Prop := ∃ l, b.Holds l ∧ l.Mirrors m

/-- `list` does not fail: the backend is no table, or `m` is `Dated`. -/
def TellsTimes (b : Backend) (m : RecordMap) : Prop :=
  match b with
  | .table _ => m.Dated
  | .memory _ | .directory _ _ => True

variable {b : Backend} {l : Entries} {m : RecordMap}

theorem IsBlank.holds (h : b.IsBlank) : b.Holds [] := by
  cases b with
  | memory m => exact h
  | directory path d => exact h
  | table t => exact h

theorem IsBlank.mirrors (h : b.IsBlank) : b.Mirrors ∅ := ⟨[], h.holds, .empty⟩

theorem Holds.put (h : b.Holds l) (now : Instant) (key : Key) (bytes : ByteArray) :
    (b.put now key bytes).1 = .ok () ∧ (b.put now key bytes).2.Holds (l.put now key bytes) := by
  cases b with
  | memory m =>
    cases h
    exact ⟨rfl, Memory.put_ofEntries l now key bytes⟩
  | directory path d =>
    obtain ⟨hpath, rfl⟩ := h
    rw [Backend.put, Directory.put_ofEntries]
    exact ⟨rfl, hpath, rfl⟩
  | table t =>
    cases h
    exact ⟨rfl, Table.put_ofEntries l now key bytes⟩

theorem Holds.get (h : b.Holds l) (key : Key) : b.get key = .ok ((l.lookup key).map (·.1)) := by
  cases b with
  | memory m =>
    cases h
    exact congrArg Except.ok (Memory.get_ofEntries l key)
  | directory path d =>
    obtain ⟨-, rfl⟩ := h
    exact Directory.get_ofEntries l key
  | table t =>
    cases h
    exact congrArg Except.ok (Table.get_ofEntries l key)

theorem Holds.delete (h : b.Holds l) (key : Key) :
    (b.delete key).1 = .ok (l.lookup key).isSome ∧ (b.delete key).2.Holds (l.delete key) := by
  cases b with
  | memory m =>
    cases h
    rw [Backend.delete, Memory.delete_ofEntries]
    exact ⟨rfl, rfl⟩
  | directory path d =>
    obtain ⟨hpath, rfl⟩ := h
    rw [Backend.delete, Directory.delete_ofEntries]
    exact ⟨rfl, hpath, rfl⟩
  | table t =>
    cases h
    rw [Backend.delete, Table.delete_ofEntries]
    exact ⟨rfl, rfl⟩

theorem Holds.contains (h : b.Holds l) (key : Key) : b.contains key = .ok (l.lookup key).isSome := by
  cases b with
  | memory m =>
    cases h
    exact congrArg Except.ok (Memory.contains_ofEntries l key)
  | directory path d =>
    obtain ⟨-, rfl⟩ := h
    exact Directory.contains_ofEntries l key
  | table t =>
    cases h
    exact congrArg Except.ok (Table.contains_ofEntries l key)

theorem Holds.list (h : b.Holds l) (hm : l.Mirrors m) (ht : b.TellsTimes m) :
    b.list = .ok (l.map Entries.metaOf) := by
  cases b with
  | memory m =>
    cases h
    exact congrArg Except.ok (Memory.list_ofEntries l)
  | directory path d =>
    obtain ⟨hpath, rfl⟩ := h
    exact Directory.list_ofEntries l hpath
  | table t =>
    cases h
    exact Table.list_ofEntries l fun e he => ht e.1 e.2 ((hm.mem_iff e.1 e.2).mp he)

/-- `Mirrors` is kept by every call. -/
theorem Mirrors.serve (h : b.Mirrors m) (call : BackendCall) :
    (b.serve call).2.Mirrors (m.serve call).2 := by
  obtain ⟨l, hl, hm⟩ := h
  cases call with
  | put now key bytes => exact ⟨_, (hl.put now key bytes).2, hm.put now key bytes⟩
  | get key => exact ⟨l, hl, hm⟩
  | delete key => exact ⟨_, (hl.delete key).2, hm.delete key⟩
  | contains key => exact ⟨l, hl, hm⟩
  | list => exact ⟨l, hl, hm⟩

/-- `b` answers as `m` does. -/
theorem Mirrors.answer (h : b.Mirrors m) (call : BackendCall)
    (ht : call = .list → b.TellsTimes m) : (b.serve call).1 = .ok (m.serve call).1 := by
  obtain ⟨l, hl, hm⟩ := h
  cases call with
  | put now key bytes =>
    rw [Backend.serve, (hl.put now key bytes).1]
    rfl
  | get key =>
    rw [Backend.serve, hl.get, RecordMap.serve, hm.lookup]
    rfl
  | delete key =>
    rw [Backend.serve, (hl.delete key).1, RecordMap.serve, hm.lookup]
    rfl
  | contains key =>
    rw [Backend.serve, hl.contains, RecordMap.serve, hm.lookup]
    rfl
  | list =>
    rw [hm.metas, Backend.serve, hl.list hm (ht rfl)]
    rfl

/-- A table whose `m` is not `Dated` answers `.invalidRecord` with the key of such a record. -/
theorem Mirrors.list_error (h : b.Mirrors m) (ht : ¬b.TellsTimes m) :
    ∃ key record, m.lookup key = some record ∧
      (b.serve .list).1 = .error (.invalidRecord (key.text ++ ": bad timestamp")) := by
  obtain ⟨l, hl, hm⟩ := h
  cases b with
  | memory m => exact absurd trivial ht
  | directory path d => exact absurd trivial ht
  | table t =>
    cases hl
    obtain ⟨e, he, hlist⟩ := Table.list_ofEntries_error l fun hall =>
      ht fun key record hrecord => hall (key, record) ((hm.mem_iff key record).mpr hrecord)
    refine ⟨e.1, e.2, (hm.mem_iff e.1 e.2).mp he, ?_⟩
    rw [Backend.serve, Backend.list, hlist]
    rfl

/-- `contains` is `get` with `Option.isSome`. -/
theorem Mirrors.contains_eq (h : b.Mirrors m) (key : Key) :
    b.contains key = (b.get key).map Option.isSome := by
  obtain ⟨l, hl, -⟩ := h
  rw [hl.contains, hl.get, Except.map, Option.isSome_map]

theorem Mirrors.after (h : b.Mirrors m) (calls : List BackendCall) :
    (b.after calls).Mirrors (m.after calls) := by
  induction calls generalizing b m with
  | nil => exact h
  | cons call rest ih => exact ih (h.serve call)

/-- After any `calls` on a blank backend, the next call is answered as the map answers it, and
`contains` as `get`. Only a table with a record from a year that does not have four digits fails,
and only at `list`. -/
theorem agreement (hb : b.IsBlank) (calls : List BackendCall) (call : BackendCall) :
    ((call = .list → (b.after calls).TellsTimes (RecordMap.after ∅ calls)) →
      ((b.after calls).serve call).1 = .ok (RecordMap.serve (RecordMap.after ∅ calls) call).1) ∧
    (¬(b.after calls).TellsTimes (RecordMap.after ∅ calls) →
      ∃ key record, (RecordMap.after ∅ calls).lookup key = some record ∧
        ((b.after calls).serve .list).1 =
          .error (.invalidRecord (key.text ++ ": bad timestamp"))) ∧
    ∀ key, (b.after calls).contains key = ((b.after calls).get key).map Option.isSome := by
  have h := hb.mirrors.after calls
  exact ⟨h.answer call, h.list_error, h.contains_eq⟩

/-- A table with a record of 1970 is listed. -/
theorem agreement_of_recent :
    (((Backend.table {}).after [.put ⟨5⟩ (.ofNat 7) ⟨#[1]⟩]).serve .list).1 =
      .ok (.records {{ key := .ofNat 7, size := 1, storedAt := ⟨5⟩ }}) := by
  refine ((agreement (b := .table {}) rfl _ .list).1 fun _ => ?_).trans rfl
  refine RecordMap.dated_empty.after fun now key bytes hmem => ?_
  obtain ⟨rfl, -, -⟩ := BackendCall.put.inj (List.mem_singleton.mp hmem)
  decide

/-- The first instant of the year 10000. -/
def lateInstant : Instant := ⟨253402300800000000000⟩

/-- A record of the year 10000 is listed in memory; in a table `get` reads it and `list` fails. -/
theorem agreement_broken :
    (((Backend.memory {}).after [.put lateInstant (.ofNat 7) ⟨#[1]⟩]).serve .list).1 =
      .ok (.records {{ key := .ofNat 7, size := 1, storedAt := lateInstant }}) ∧
    (((Backend.table {}).after [.put lateInstant (.ofNat 7) ⟨#[1]⟩]).serve (.get (.ofNat 7))).1 =
      .ok (.bytes (some ⟨#[1]⟩)) ∧
    (((Backend.table {}).after [.put lateInstant (.ofNat 7) ⟨#[1]⟩]).serve .list).1 =
      .error (.invalidRecord ((Key.ofNat 7).text ++ ": bad timestamp")) := by
  have hlate : ¬Timestamp.HasShortYear lateInstant := by decide
  have hrow := Table.rowMeta_of_longYear (e := (.ofNat 7, ⟨#[1]⟩, lateInstant)) hlate
  have hput : (Backend.table {}).after [.put lateInstant (.ofNat 7) ⟨#[1]⟩] =
      .table (.ofEntries [(.ofNat 7, ⟨#[1]⟩, lateInstant)]) := rfl
  refine ⟨rfl, ?_, ?_⟩
  · rw [hput, serve, Backend.get, Table.get_ofEntries, List.lookup_cons_self]
    rfl
  · rw [hput, serve, Backend.list, Table.list, Table.ofEntries, List.map_singleton, List.mapM_cons,
      hrow]
    rfl

end Backend

end SessionCache
