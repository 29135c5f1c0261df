import SessionCache.Proofs.Command.Records
import SessionCache.Proofs.Store.Purging

/-!
# Listed records and their keys

A listing takes any spelling of a key for that key, and does not look at what stands under a name; the
other calls look under the one name that the key is written with, for a file. So a backend in which
somebody else wrote can list what cannot be found, and a listing shows each record by a key that leads
to it exactly if the backend is in order (`Holdings.InOrder`).

* `Holdings`: what is in a backend, any `Folder` among it; `Holdings.list`, `Holdings.get`,
  `Holdings.contains`, `Holdings.delete`, `Holdings.purge`: the calls. `Backend.holdings` is what a
  `Backend` keeps (`Backend.list_holdings` and so on).
* `Holdings.spots`: the three kinds as one, places with what a listing makes of them.
* `Holdings.inOrder_iff`: a backend is in order exactly if no key is listed twice and a file of the
  listed size is read under each key that is listed.
* `Holdings.reach`: then, and only then, each record that is listed can be read, removed and purged.
* `Holdings.reach_missed`: a directory, a link and a row that are listed, and cannot be reached.
-/

namespace SessionCache

/-! ## What is in a backend -/

/-- The contents of a backend, whoever wrote them. -/
inductive Holdings where
  | memory (m : Memory)
  | folder (path : String) (f : Folder)
  | table (t : Table)

namespace Holdings

/-- `Memory.list`, `Folder.list` or `Table.list`. -/
def list : Holdings → Except StoreError (List RecordMeta)
  | .memory m => .ok m.list
  | .folder path f => f.list path
  | .table t => t.list

/-- `Memory.get`, `Folder.get` or `Table.get`. -/
def get (h : Holdings) (key : Key) : Except StoreError (Option ByteArray) :=
  match h with
  | .memory m => .ok (m.get key)
  | .folder _ f => f.get key
  | .table t => .ok (t.get key)

/-- `Memory.contains`, `Folder.contains` or `Table.contains`. -/
def contains (h : Holdings) (key : Key) : Except StoreError Bool :=
  match h with
  | .memory m => .ok (m.contains key)
  | .folder _ f => f.contains key
  | .table t => .ok (t.contains key)

/-- `Memory.delete`, `Folder.delete` or `Table.delete`. -/
def delete (h : Holdings) (key : Key) : Except StoreError Bool × Holdings :=
  match h with
  | .memory m => (.ok (m.delete key).1, .memory (m.delete key).2)
  | .folder path f => ((f.delete key).1, .folder path (f.delete key).2)
  | .table t => (.ok (t.delete key).1, .table (t.delete key).2)

/-- The deletions of `Store.purge`: those of the given records with a `storedAt` before `cutoff`, up
to the first failure. -/
def purge (cutoff : Instant) : List RecordMeta → Holdings → Except StoreError (List Key) × Holdings
  | [], h => (.ok [], h)
  | m :: rest, h =>
    if m.storedAt < cutoff then
      match h.delete m.key with
      | (.error e, h) => (.error e, h)
      | (.ok found, h) =>
        let (others, h) := purge cutoff rest h
        (others.map fun keys => if found then m.key :: keys else keys, h)
    else purge cutoff rest h

/-- What `get` reads under `key`, if that passes. -/
def contents : Holdings → Key → Option ByteArray
  | .memory m => m.get
  | .folder _ f => f.contents
  | .table t => t.get

variable {h : Holdings} {key : Key} {bytes : ByteArray}

theorem get_of_contents (hc : h.contents key = some bytes) : h.get key = .ok (some bytes) := by
  cases h with
  | memory m => exact Backend.get_of_contents (b := .memory m) hc
  | folder path f => exact Folder.get_of_contents hc
  | table t => exact Backend.get_of_contents (b := .table t) hc

theorem contains_of_contents (hc : h.contents key = some bytes) : h.contains key = .ok true := by
  cases h with
  | memory m => exact Backend.contains_of_contents (b := .memory m) hc
  | folder path f => exact Folder.contains_of_contents hc
  | table t => exact Backend.contains_of_contents (b := .table t) hc

theorem contents_of_get (hget : h.get key = .ok (some bytes)) : h.contents key = some bytes := by
  cases h with
  | memory m => exact Except.ok.inj hget
  | folder path f => exact (Folder.get_eq hget).symm
  | table t => exact Except.ok.inj hget

end Holdings

namespace Backend

/-- The contents of `b`. -/
def holdings : Backend → Holdings
  | .memory m => .memory m
  | .directory path d => .folder path d.folder
  | .table t => .table t

variable (b : Backend) (key : Key)

@[simp] theorem list_holdings : b.holdings.list = b.list := by cases b <;> rfl

@[simp] theorem contents_holdings : b.holdings.contents = b.contents := by cases b <;> rfl

@[simp]
theorem delete_holdings : b.holdings.delete key = ((b.delete key).1, (b.delete key).2.holdings) := by
  cases b <;> rfl

end Backend

/-! ## Places -/

/-- What is at a place. `listed` is what a listing makes of it, `none` if it is no record;
`removable` is whether `delete` removes it. -/
structure Spot where
  listed : Except StoreError (Option RecordMeta)
  removable : Bool

namespace Spot

/-- The record that the spot is listed as. -/
def listed? (spot : Spot) : Option RecordMeta :=
  match spot.listed with
  | .ok m? => m?
  | .error _ => none

theorem listed?_eq_some_iff {spot : Spot} {m : RecordMeta} :
    spot.listed? = some m ↔ spot.listed = .ok (some m) := by
  rw [listed?]
  cases spot.listed with
  | ok m? => simp
  | error _ => simp

/-- Two places are not listed with one key. -/
def Apart (e e' : FilePlace × Spot) : Prop :=
  ∀ m, e.2.listed = .ok (some m) → ∀ m', e'.2.listed = .ok (some m') → m.key ≠ m'.key

instance : Std.Symm Apart := ⟨fun _ _ h m hm m' hm' hkey => h m' hm' m hm hkey.symm⟩

/-- The listing of all spots; it fails with the first that fails. -/
def gather : List (FilePlace × Spot) → Except StoreError (List RecordMeta)
  | [] => .ok []
  | e :: rest =>
    match e.2.listed, gather rest with
    | .error cause, _ => .error cause
    | .ok _, .error cause => .error cause
    | .ok m?, .ok others => .ok (m?.toList ++ others)

theorem gather_of_forall {l : List (FilePlace × Spot)}
    (h : ∀ e ∈ l, e.2.listed = .ok e.2.listed?) : gather l = .ok (l.filterMap (·.2.listed?)) := by
  induction l with
  | nil => rfl
  | cons e rest ih =>
    obtain ⟨hfirst, hrest⟩ := List.forall_mem_cons.mp h
    rw [gather, hfirst, ih hrest, List.filterMap_cons]
    cases e.2.listed? <;> rfl

theorem forall_of_gather {l : List (FilePlace × Spot)} {metas : List RecordMeta}
    (h : gather l = .ok metas) : ∀ e ∈ l, e.2.listed = .ok e.2.listed? := by
  induction l generalizing metas with
  | nil => exact nofun
  | cons e rest ih =>
    rw [gather] at h
    split at h
    · cases h
    · cases h
    · next m? others hfirst hrest =>
      exact List.forall_mem_cons.mpr ⟨by rw [listed?, hfirst], ih hrest⟩

end Spot

namespace Folder

/-- `remove_file` removes this entry. -/
def isRemovable : Content → Bool
  | .directory _ _ => false
  | .file _ _ | .shared _ _ _ | .link _ _ _ => true

/-- The spots of a directory: one for each entry. -/
def spots (path : String) (entries : FileEntries) : List (FilePlace × Spot) :=
  entries.map fun e => (e.1, ⟨entryMeta path e, isRemovable e.2⟩)

theorem metas_eq_gather (path : String) (entries : FileEntries) :
    metas path entries = Spot.gather (spots path entries) := by
  induction entries with
  | nil => rfl
  | cons e rest ih =>
    rw [metas, ih, spots, spots, List.map_cons, Spot.gather]
    cases entryMeta path e with
    | error cause => rfl
    | ok m? =>
      dsimp only
      cases Spot.gather (rest.map _) with
      | error cause => rfl
      | ok others => cases m? <;> rfl

theorem lookup_spots (path : String) (entries : FileEntries) (place : FilePlace) :
    (spots path entries).lookup place =
      (entries.lookup place).map fun content =>
        ⟨entryMeta path (place, content), isRemovable content⟩ := by
  induction entries with
  | nil => rfl
  | cons e rest ih =>
    rw [spots, List.map_cons, List.lookup_cons, List.lookup_cons]
    by_cases h : place = e.1
    · rw [beq_iff_eq.mpr h, h]
      rfl
    · rw [beq_eq_false_iff_ne.mpr h]
      exact ih

theorem spots_filter (path : String) (entries : FileEntries) (place : FilePlace) :
    spots path (entries.filter (·.1 ≠ place)) = (spots path entries).filter (·.1 ≠ place) := by
  rw [spots, spots, List.filter_map]
  rfl

theorem isRemovable_iff {content : Content} :
    isRemovable content = true ↔ ∀ size modified, content ≠ .directory size modified := by
  cases content <;> simp [isRemovable]

end Folder

namespace Table

/-- The spots of a table: one for each row. -/
def spots (t : Table) : List (FilePlace × Spot) :=
  t.rows.map fun row => (.named row.key, ⟨(rowMeta row).map some, true⟩)

theorem lookup_spots (t : Table) (key : Key) : t.spots.lookup (.named key.text) =
    (t.find? key).map fun row => ⟨(rowMeta row).map some, true⟩ := by
  have hname : (fun row : Row => decide (FilePlace.named row.key = .named key.text)) =
      fun row => decide (row.key = key.text) := by
    funext row
    simp
  rw [spots, Assoc.lookup_map_pair, hname, find?]

theorem spots_delete (t : Table) (key : Key) :
    (t.delete key).2.spots = t.spots.filter (·.1 ≠ .named key.text) := by
  rw [spots, spots, List.filter_map, delete]
  refine congrArg _ (List.filter_congr fun row _ => ?_)
  simp

theorem list_eq_gather (t : Table) : t.list = Spot.gather t.spots := by
  obtain ⟨rows⟩ := t
  rw [list, spots]
  dsimp only
  induction rows with
  | nil => rfl
  | cons row rest ih =>
    rw [List.mapM_cons, ih, List.map_cons, Spot.gather]
    cases rowMeta row with
    | error cause => rfl
    | ok m =>
      dsimp only
      cases Spot.gather (rest.map _) <;> rfl

end Table

namespace Memory

/-- The spots of a memory: one for each key. -/
def spots (m : Memory) : List (FilePlace × Spot) :=
  m.records.map fun r =>
    (.named r.key.text, ⟨.ok (some ⟨r.key, r.bytes.size, r.storedAt, none⟩), true⟩)

theorem lookup_spots (m : Memory) (key : Key) : m.spots.lookup (.named key.text) =
    (m.find? key).map fun r => ⟨.ok (some ⟨r.key, r.bytes.size, r.storedAt, none⟩), true⟩ := by
  have hname : (fun r : MemoryRecord => decide (FilePlace.named r.key.text = .named key.text)) =
      fun r => decide (r.key = key) := by
    funext r
    simp [Key.text_inj]
  rw [spots, Assoc.lookup_map_pair, hname, find?]

theorem spots_delete (m : Memory) (key : Key) :
    (m.delete key).2.spots = m.spots.filter (·.1 ≠ .named key.text) := by
  rw [spots, spots, List.filter_map, delete]
  refine congrArg _ (List.filter_congr fun r _ => ?_)
  simp [Key.text_inj]

theorem list_eq_gather (m : Memory) : .ok m.list = Spot.gather m.spots := by
  obtain ⟨records⟩ := m
  rw [list, spots]
  dsimp only
  induction records with
  | nil => rfl
  | cons r rest ih =>
    rw [List.map_cons, List.map_cons, Spot.gather, ← ih]
    rfl

end Memory

namespace Holdings

variable {h : Holdings} {metas todo : List RecordMeta}

/-- The place that `get`, `contains` and `delete` look at for `key`. -/
def place : Holdings → Key → FilePlace
  | .memory _ | .table _ => fun key => .named key.text
  | .folder _ _ => .record

/-- The spots of any backend. -/
def spots : Holdings → List (FilePlace × Spot)
  | .memory m => m.spots
  | .folder path f => Folder.spots path f.entries
  | .table t => t.spots

/-- No place occurs twice. -/
def Distinct (h : Holdings) : Prop := (h.spots.map (·.1)).Nodup

instance (h : Holdings) : Decidable h.Distinct :=
  inferInstanceAs (Decidable (h.spots.map (·.1)).Nodup)

/-- The folder can be listed. -/
def IsThere : Holdings → Prop
  | .memory _ | .table _ => True
  | .folder path f => path ≠ "" ∧ f = .present f.entries

theorem place_inj {key other : Key} : h.place key = h.place other ↔ key = other := by
  cases h with
  | memory m => simp [place, Key.text_inj]
  | folder path f => exact FilePlace.record_inj
  | table t => simp [place, Key.text_inj]

theorem list_eq (hthere : h.IsThere) : h.list = Spot.gather h.spots := by
  cases h with
  | memory m => exact m.list_eq_gather
  | table t => exact t.list_eq_gather
  | folder path f =>
    obtain ⟨hpath, hf⟩ := hthere
    have hne : path.isEmpty = false := by simpa using hpath
    rw [list, hf, Folder.list, hne]
    exact Folder.metas_eq_gather path f.entries

theorem isThere_of_list (hlist : h.list = .ok metas) : h.IsThere := by
  cases h with
  | memory m => trivial
  | table t => trivial
  | folder path f =>
    cases f with
    | present entries =>
      refine ⟨fun hpath => ?_, rfl⟩
      subst hpath
      cases hlist
    | missing => cases hlist
    | blocked => cases hlist

/-- A key with `contents` has a spot at its place, which is `removable` and, if it can be listed, is
listed with this key. -/
theorem spot_of_contents {key : Key} {bytes : ByteArray} (hc : h.contents key = some bytes) :
    ∃ spot, h.spots.lookup (h.place key) = some spot ∧ spot.removable = true ∧
      ∀ m?, spot.listed = .ok m? → ∃ m, m? = some m ∧ m.key = key := by
  cases h with
  | memory m =>
    obtain ⟨r, hfind, -⟩ := Option.map_eq_some_iff.mp hc
    have hkey : r.key = key := by simpa using List.find?_some hfind
    refine ⟨_, (m.lookup_spots key).trans (congrArg (Option.map _) hfind), rfl, fun m? hm => ?_⟩
    cases hm
    exact ⟨_, rfl, hkey⟩
  | table t =>
    obtain ⟨row, hfind, -⟩ := Option.map_eq_some_iff.mp hc
    have hkey : row.key = key.text := by simpa using List.find?_some hfind
    refine ⟨_, (t.lookup_spots key).trans (congrArg (Option.map _) hfind), rfl, fun m? hm => ?_⟩
    simp only [Table.rowMeta, hkey, Key.ofText?_text] at hm
    split at hm
    · cases hm
    · cases hm
      exact ⟨_, rfl, rfl⟩
  | folder path f =>
    obtain ⟨entries, content, rfl, hlookup, hfile⟩ := Folder.lookup_of_contents hc
    refine ⟨⟨Folder.entryMeta path (.record key, content), Folder.isRemovable content⟩,
      (Folder.lookup_spots path entries _).trans (congrArg (Option.map _) hlookup),
      Folder.isRemovable_iff.mpr hfile, fun m? hm => ?_⟩
    dsimp only at hm
    rw [Folder.entryMeta_record] at hm
    cases hm
    exact ⟨_, rfl, rfl⟩

/-- `delete` of a key with a `removable` spot removes that spot. -/
theorem delete_eq {key : Key} {spot : Spot} (hlookup : h.spots.lookup (h.place key) = some spot)
    (hspot : spot.removable = true) :
    ∃ h', h.delete key = (.ok true, h') ∧ h'.place = h.place ∧
      h'.spots = h.spots.filter (·.1 ≠ h.place key) ∧ (h.IsThere → h'.IsThere) := by
  cases h with
  | memory m =>
    obtain ⟨r, hfind, -⟩ := Option.map_eq_some_iff.mp ((m.lookup_spots key).symm.trans hlookup)
    have hdelete : (Holdings.memory m).delete key = (.ok true, .memory (m.delete key).2) := by
      rw [delete, Memory.delete, hfind]
      rfl
    exact ⟨_, hdelete, rfl, m.spots_delete key, id⟩
  | table t =>
    obtain ⟨row, hfind, -⟩ := Option.map_eq_some_iff.mp ((t.lookup_spots key).symm.trans hlookup)
    have hdelete : (Holdings.table t).delete key = (.ok true, .table (t.delete key).2) := by
      rw [delete, Table.delete, hfind]
      rfl
    exact ⟨_, hdelete, rfl, t.spots_delete key, id⟩
  | folder path f =>
    obtain ⟨content, hcontent, rfl⟩ :=
      Option.map_eq_some_iff.mp ((Folder.lookup_spots path f.entries _).symm.trans hlookup)
    cases f with
    | present entries =>
      have hcontent : entries.lookup (.record key) = some content := hcontent
      have hdelete : (Holdings.folder path (.present entries)).delete key =
          (.ok true, .folder path (.present (entries.filter (·.1 ≠ .record key)))) := by
        rw [delete, Folder.delete_of_lookup hcontent (Folder.isRemovable_iff.mp hspot)]
      exact ⟨_, hdelete, rfl, Folder.spots_filter path entries _, fun hthere => ⟨hthere.1, rfl⟩⟩
    | missing => cases hcontent
    | blocked => cases hcontent

/-! ## Backends in order -/

/-- Every listed record is at the place of its key, and `contents` has its `size` there. -/
def InOrder (h : Holdings) : Prop :=
  ∀ e ∈ h.spots, ∀ m, e.2.listed = .ok (some m) →
    e.1 = h.place m.key ∧ ∃ bytes, h.contents m.key = some bytes ∧ bytes.size = m.size

/-- Every listed record is at the place of its key, and is `removable`. -/
def Tidy (h : Holdings) : Prop :=
  ∀ e ∈ h.spots, ∀ m, e.2.listed = .ok (some m) → e.1 = h.place m.key ∧ e.2.removable = true

theorem InOrder.tidy (ho : h.InOrder) (hd : h.Distinct) : h.Tidy := fun e he m hm => by
  obtain ⟨hplace, bytes, hbytes, -⟩ := ho e he m hm
  obtain ⟨spot, hspot, hremovable, -⟩ := spot_of_contents hbytes
  obtain ⟨place, spot'⟩ := e
  obtain rfl : place = h.place m.key := hplace
  rw [Assoc.lookup_of_mem hd he] at hspot
  cases hspot
  exact ⟨rfl, hremovable⟩

theorem spots_of_list (hlist : h.list = .ok metas) :
    (∀ e ∈ h.spots, e.2.listed = .ok e.2.listed?) ∧ h.spots.filterMap (·.2.listed?) = metas := by
  rw [list_eq (isThere_of_list hlist)] at hlist
  have hall := Spot.forall_of_gather hlist
  rw [Spot.gather_of_forall hall] at hlist
  exact ⟨hall, Except.ok.inj hlist⟩

theorem mem_of_list (hlist : h.list = .ok metas) {m : RecordMeta} :
    m ∈ metas ↔ ∃ e ∈ h.spots, e.2.listed = .ok (some m) := by
  obtain ⟨-, rfl⟩ := spots_of_list hlist
  simp only [List.mem_filterMap, Spot.listed?_eq_some_iff]

/-- No key is listed twice if and only if the spots are pairwise `Apart`. -/
theorem nodup_iff (hlist : h.list = .ok metas) :
    (metas.map (·.key)).Nodup ↔ h.spots.Pairwise Spot.Apart := by
  obtain ⟨-, rfl⟩ := spots_of_list hlist
  rw [List.Nodup, List.pairwise_map, List.pairwise_filterMap]
  simp only [Spot.listed?_eq_some_iff]
  rfl

theorem Tidy.nodup (ht : h.Tidy) (hd : h.Distinct) (hlist : h.list = .ok metas) :
    (metas.map (·.key)).Nodup := by
  rw [nodup_iff hlist]
  rw [Distinct, List.Nodup, List.pairwise_map] at hd
  refine hd.imp_of_mem fun {e e'} he he' hne m hm m' hm' hkey => hne ?_
  rw [(ht e he m hm).1, (ht e' he' m' hm').1, hkey]

/-- `InOrder` says of the operations: no key is listed twice, and `contents` of each listed key has
the listed `size`. -/
theorem inOrder_iff (hd : h.Distinct) (hlist : h.list = .ok metas) :
    h.InOrder ↔ (metas.map (·.key)).Nodup ∧
      ∀ m ∈ metas, ∃ bytes, h.contents m.key = some bytes ∧ bytes.size = m.size := by
  constructor
  · refine fun ho => ⟨(ho.tidy hd).nodup hd hlist, fun m hm => ?_⟩
    obtain ⟨e, he, hlisted⟩ := (mem_of_list hlist).mp hm
    exact (ho e he m hlisted).2
  · rintro ⟨hnodup, hthere⟩ e he m hlisted
    obtain ⟨bytes, hbytes, hsize⟩ := hthere m ((mem_of_list hlist).mpr ⟨e, he, hlisted⟩)
    refine ⟨?_, bytes, hbytes, hsize⟩
    obtain ⟨spot, hlookup, -, hrecord⟩ := spot_of_contents hbytes
    have hplace := Assoc.mem_of_lookup hlookup
    have hspot := (spots_of_list hlist).1 _ hplace
    obtain ⟨m', hm', hkey⟩ := hrecord _ hspot
    -- Under the name of the key stands a record of the key, so that there is no other name for it.
    by_contra hne
    refine ((nodup_iff hlist).mp hnodup).forall he hplace (fun heq => hne ?_) m hlisted m'
      (hspot.trans (congrArg Except.ok hm')) hkey.symm
    rw [heq]

/-- `delete` of a listed key answers `true`, and the listing loses this record. -/
theorem Tidy.delete (ht : h.Tidy) (hd : h.Distinct) (hlist : h.list = .ok metas) {m : RecordMeta}
    (hm : m ∈ metas) :
    ∃ h', h.delete m.key = (.ok true, h') ∧ h'.list = .ok (metas.filter (·.key ≠ m.key)) ∧
      h'.Tidy ∧ h'.Distinct := by
  obtain ⟨⟨place, spot⟩, he, hlisted⟩ := (mem_of_list hlist).mp hm
  obtain ⟨rfl, hremovable⟩ := ht _ he m hlisted
  obtain ⟨h', hdelete, hplace, hspots, hthere⟩ := delete_eq (Assoc.lookup_of_mem hd he) hremovable
  obtain ⟨hall, rfl⟩ := spots_of_list hlist
  have hsub : ∀ e ∈ h'.spots, e ∈ h.spots := fun e he => List.mem_of_mem_filter (hspots ▸ he)
  refine ⟨h', hdelete, ?_, fun e he x hx => ?_, ?_⟩
  · rw [list_eq (hthere (isThere_of_list hlist)), Spot.gather_of_forall fun e he => hall e (hsub e he),
      hspots, List.filterMap_filter, List.filter_filterMap]
    congr 1
    refine List.filterMap_congr fun e he => ?_
    cases hx : e.2.listed? with
    | none => simp
    | some x =>
      have hname := (ht e he x (Spot.listed?_eq_some_iff.mp hx)).1
      by_cases hkey : x.key = m.key
      · simp [Option.filter, hname, hkey]
      · have hne : h.place x.key ≠ h.place m.key := fun he => hkey (place_inj.mp he)
        simp [Option.filter, hname, hkey, hne]
  · rw [hplace]
    exact ht e (hsub e he) x hx
  · rw [Distinct, hspots]
    exact Assoc.nodup_filter hd _

/-- `purge` of some of the listed records deletes those before `cutoff`. -/
theorem Tidy.purge (ht : h.Tidy) (hd : h.Distinct) (hlist : h.list = .ok metas)
    (hnodup : (todo.map (·.key)).Nodup) (hsub : ∀ x ∈ todo, x ∈ metas) (cutoff : Instant) :
    ∃ h', h.purge cutoff todo = (.ok ((Store.older cutoff todo).map (·.key)), h') ∧
      h'.list = .ok (metas.filter (·.key ∉ (Store.older cutoff todo).map (·.key))) := by
  induction todo generalizing h metas with
  | nil => exact ⟨h, rfl, by rw [hlist]; simp [Store.older]⟩
  | cons x rest ih =>
    obtain ⟨hx, hrest⟩ := List.nodup_cons.mp hnodup
    obtain ⟨hxmem, hsub⟩ := List.forall_mem_cons.mp hsub
    rw [Holdings.purge]
    by_cases hold : x.storedAt < cutoff
    · obtain ⟨h₁, hdelete, hlist₁, ht₁, hd₁⟩ := ht.delete hd hlist hxmem
      have hleft : ∀ y ∈ rest, y ∈ metas.filter (·.key ≠ x.key) := fun y hy => by
        refine List.mem_filter.mpr ⟨hsub y hy, ?_⟩
        simpa using fun he : y.key = x.key => hx (List.mem_map.mpr ⟨y, hy, he⟩)
      obtain ⟨h', hpurge, hlist'⟩ := ih ht₁ hd₁ hlist₁ hrest hleft
      refine ⟨h', ?_, ?_⟩
      · rw [if_pos hold, hdelete]
        dsimp only
        rw [hpurge, Store.older_cons_of_lt hold]
        rfl
      · rw [hlist', List.filter_filter, Store.older_cons_of_lt hold]
        refine congrArg _ (List.filter_congr fun y _ => ?_)
        rw [Bool.eq_iff_iff]
        simp only [List.map_cons, List.mem_cons, Bool.and_eq_true, decide_eq_true_eq, not_or, and_comm]
    · obtain ⟨h', hpurge, hlist'⟩ := ih ht hd hlist hrest hsub
      rw [if_neg hold, Store.older_cons_of_not_lt hold]
      exact ⟨h', hpurge, hlist'⟩

/-- `purge` of all that is listed, in any order, leaves the records from `cutoff` on. -/
theorem Tidy.purge_all (ht : h.Tidy) (hd : h.Distinct) (hlist : h.list = .ok metas)
    (htodo : todo.Perm metas) (cutoff : Instant) :
    ∃ h', h.purge cutoff todo = (.ok ((Store.older cutoff todo).map (·.key)), h') ∧
      h'.list = .ok (metas.filter fun m => ¬m.storedAt < cutoff) := by
  have hnodup : (todo.map (·.key)).Nodup :=
    (List.Perm.map _ htodo).nodup_iff.mpr (ht.nodup hd hlist)
  obtain ⟨h', hpurge, hlist'⟩ := ht.purge hd hlist hnodup (fun x hx => htodo.mem_iff.mp hx) cutoff
  refine ⟨h', hpurge, ?_⟩
  rw [hlist']
  refine congrArg _ (List.filter_congr fun m hm => decide_eq_decide.mpr (not_congr ?_))
  exact Store.key_mem_older hnodup (htodo.mem_iff.mpr hm) cutoff

/-- `contains` finds `m` by its key, `get` reads `m.size` bytes, and after `delete` all but `m` are
listed. -/
structure Reaches (h : Holdings) (metas : List RecordMeta) (m : RecordMeta) : Prop where
  contains : h.contains m.key = .ok true
  get : ∃ bytes, h.get m.key = .ok (some bytes) ∧ bytes.size = m.size
  delete : ∃ h', h.delete m.key = (.ok true, h') ∧ h'.list = .ok (metas.filter (·.key ≠ m.key))

theorem InOrder.reaches (ho : h.InOrder) (hd : h.Distinct) (hlist : h.list = .ok metas)
    {m : RecordMeta} (hm : m ∈ metas) : h.Reaches metas m := by
  obtain ⟨e, he, hlisted⟩ := (mem_of_list hlist).mp hm
  obtain ⟨-, bytes, hbytes, hsize⟩ := ho e he m hlisted
  obtain ⟨h', hdelete, hlist', -⟩ := (ho.tidy hd).delete hd hlist hm
  exact ⟨contains_of_contents hbytes, ⟨bytes, get_of_contents hbytes, hsize⟩, h', hdelete, hlist'⟩

end Holdings

/-! ## Stores -/

namespace Store

variable {s : Store} {metas : List RecordMeta}

/-- Where `fault` lets every call pass, `Store.purge` is `Holdings.purge`. -/
theorem Open.exec_purge (hopen : s.Open) (cutoff : Instant) (todo : List RecordMeta) :
    ∃ s', exec (purge cutoff todo) s = ((s.backend.holdings.purge cutoff todo).1, s') ∧
      s'.backend.holdings = (s.backend.holdings.purge cutoff todo).2 := by
  induction todo generalizing s with
  | nil => exact ⟨s, rfl, rfl⟩
  | cons m rest ih =>
    rw [purge, Holdings.purge]
    by_cases hold : m.storedAt < cutoff
    · rw [if_pos hold, if_pos hold, s.backend.delete_holdings m.key]
      have hdelete : exec (delete m.key) s =
          ((s.backend.delete m.key).1, s.called (s.backend.delete m.key).2) := by
        rw [exec_delete, hopen]
      cases hfound : (s.backend.delete m.key).1 with
      | error e =>
        rw [hfound] at hdelete
        exact ⟨_, exec_bind_error hdelete, rfl⟩
      | ok found =>
        rw [hfound] at hdelete
        obtain ⟨s', hrest, hleft⟩ := ih (hopen.called (s.backend.delete m.key).2)
        refine ⟨s', ?_, hleft⟩
        change exec (purge cutoff rest) _ =
          (((s.backend.delete m.key).2.holdings.purge cutoff rest).1, s') at hrest
        rw [exec_bind_ok hdelete, exec_bind, hrest]
        dsimp only
        cases (s.backend.delete m.key).2.holdings.purge cutoff rest with
        | mk r h' => cases r <;> rfl
    · rw [if_neg hold, if_neg hold, exec_bind_ok (exec_pure false s)]
      obtain ⟨s', hrest, hleft⟩ := ih hopen
      refine ⟨s', ?_, hleft⟩
      rw [exec_bind, hrest]
      cases (s.backend.holdings.purge cutoff rest).1 <;> rfl

/-- `Store.contains`, `get` and `remove` reach `m` by its key, and so does the command that is given
the key as text; after `remove` all but `m` are listed. -/
structure Reaches (s : Store) (metas : List RecordMeta) (m : RecordMeta) : Prop where
  holds : exec (holds m.key) s = (.ok true, s.called s.backend)
  get : ∃ bytes, exec (get m.key) s = (.ok (some bytes), s.called s.backend) ∧ bytes.size = m.size
  remove : ∃ s', exec (remove m.key) s = (.ok true, s') ∧
    s'.backend.list = .ok (metas.filter (·.key ≠ m.key)) ∧
    ∀ json resolved site site' opened,
      exec (Command.Action.openStore resolved) site = (.ok opened, site') → opened.store = s →
      exec (Command.removeRecord json resolved m.key.text) site =
        exec (Command.conclude opened .removal (Command.removalReport json m.key) (.ok true, s')) site'

theorem reaches_of_inOrder (hopen : s.Open) (ho : s.backend.holdings.InOrder)
    (hd : s.backend.holdings.Distinct) (hlist : s.backend.holdings.list = .ok metas)
    {m : RecordMeta} (hm : m ∈ metas) : s.Reaches metas m := by
  obtain ⟨-, ⟨bytes, hget, hsize⟩, h', hdelete, hlist'⟩ := ho.reaches hd hlist hm
  have hbytes : s.contents m.key = some bytes := by
    rw [contents, ← Backend.contents_holdings]
    exact Holdings.contents_of_get hget
  rw [Backend.delete_holdings] at hdelete
  obtain ⟨hfound, rfl⟩ := Prod.mk.inj hdelete
  have hremove : exec (remove m.key) s = (.ok true, s.called (s.backend.delete m.key).2) := by
    rw [remove, exec_lifted, exec_delete, hopen, hfound]
    rfl
  refine ⟨hopen.exec_holds hbytes, ⟨bytes, hopen.exec_get hbytes, hsize⟩, _, hremove, ?_, ?_⟩
  · rwa [Backend.list_holdings] at hlist'
  · rintro json resolved site site' opened hsite rfl
    rw [Command.exec_removeRecord hsite, Key.ofText?_text, ← hremove]

/-- Where `fault` lets every call pass and the listing is `Tidy`, `Store.purgeOlderThan` deletes the
listed records before `cutoff`. -/
theorem exec_purgeOlderThan_of_tidy (hopen : s.Open) (ht : s.backend.holdings.Tidy)
    (hd : s.backend.holdings.Distinct) (hlist : s.backend.holdings.list = .ok metas)
    (cutoff : Instant) :
    ∃ s', exec (purgeOlderThan cutoff) s =
        (.ok ((older cutoff (sorted s.precedes metas)).map (·.key)), s') ∧
      s'.backend.list = .ok (metas.filter fun m => ¬m.storedAt < cutoff) := by
  obtain ⟨h', hpurge, hlist'⟩ := ht.purge_all hd hlist (List.mergeSort_perm metas _) cutoff
  obtain ⟨s', hexec, hleft⟩ := (hopen.called s.backend).exec_purge cutoff
    (sorted s.precedes metas)
  have hlisting : s.listing = .ok (sorted s.precedes metas) := by
    rw [listing, ← Backend.list_holdings, hlist]
    rfl
  refine ⟨s', ?_, ?_⟩
  · rw [exec_purgeOlderThan_eq (hopen _ _), hlisting]
    dsimp only
    rw [exec_lifted, hexec]
    exact congrArg (Except.mapError CacheError.store ·.1, s') hpurge
  · rw [← Backend.list_holdings, hleft]
    exact (congrArg (·.2.list) hpurge).trans hlist'

end Store

namespace Holdings

/-- Where each place is there once and `Holdings.list` succeeds, a backend is `InOrder` exactly if no
key is listed twice, `contains`, `get` and `delete` reach each record that is listed by its key, and
`Holdings.purge`, in whatever order, deletes just the older of those that are listed. Then the same
holds of `holds`, `get`, `remove` and `purgeOlderThan` of a store with that backend, and of the
command that removes a record by the text of its key. -/
theorem reach {h : Holdings} {metas : List RecordMeta} (hd : h.Distinct)
    (hlist : h.list = .ok metas) :
    (h.InOrder ↔ (metas.map (·.key)).Nodup ∧ (∀ m ∈ metas, h.Reaches metas m) ∧
      ∀ cutoff todo, todo.Perm metas →
        ∃ h', h.purge cutoff todo = (.ok ((Store.older cutoff todo).map (·.key)), h') ∧
          h'.list = .ok (metas.filter fun m => ¬m.storedAt < cutoff)) ∧
    (h.InOrder → ∀ s : Store, s.Open → s.backend.holdings = h →
      (∀ m ∈ metas, s.Reaches metas m) ∧
      ∀ cutoff, ∃ s', exec (Store.purgeOlderThan cutoff) s =
          (.ok ((Store.older cutoff (Store.sorted s.precedes metas)).map (·.key)), s') ∧
        s'.backend.list = .ok (metas.filter fun m => ¬m.storedAt < cutoff)) := by
  refine ⟨⟨fun ho => ?_, fun ⟨hnodup, hreaches, _⟩ => ?_⟩, ?_⟩
  · exact ⟨(ho.tidy hd).nodup hd hlist, fun m hm => ho.reaches hd hlist hm, fun cutoff todo htodo =>
      (ho.tidy hd).purge_all hd hlist htodo cutoff⟩
  · refine (inOrder_iff hd hlist).mpr ⟨hnodup, fun m hm => ?_⟩
    obtain ⟨bytes, hget, hsize⟩ := (hreaches m hm).get
    exact ⟨bytes, contents_of_get hget, hsize⟩
  · rintro ho s hopen rfl
    exact ⟨fun m hm => Store.reaches_of_inOrder hopen ho hd hlist hm, fun cutoff =>
      Store.exec_purgeOlderThan_of_tidy hopen (ho.tidy hd) hd hlist cutoff⟩

/-- A directory with the record of `.ofNat 7` and a file that is not a record. -/
def tidyFolder : Folder :=
  .present [(.named "README.txt", .file ⟨#[1]⟩ ⟨0⟩), (.record (.ofNat 7), .file ⟨#[1, 2]⟩ ⟨5⟩)]

/-- `tidyFolder` with a `fault` that lets every call pass. -/
def tidyStore : Store where
  backend := .directory "/d" ⟨tidyFolder, (Folder.plain_of_forall (by decide)).apart⟩
  precedes _ _ := false

/-- In `tidyStore` the record is reached by its key, and purged. -/
theorem reach_of_tidy :
    (Holdings.folder "/d" tidyFolder).list = .ok [⟨.ofNat 7, 2, ⟨5⟩, none⟩] ∧
      tidyStore.Reaches [⟨.ofNat 7, 2, ⟨5⟩, none⟩] ⟨.ofNat 7, 2, ⟨5⟩, none⟩ ∧
      ∃ s', exec (Store.purgeOlderThan ⟨9⟩) tidyStore = (.ok [.ofNat 7], s') ∧
        s'.backend.list = .ok [] := by
  have hlist : (Holdings.folder "/d" tidyFolder).list = .ok [⟨.ofNat 7, 2, ⟨5⟩, none⟩] := rfl
  have hdistinct : (Holdings.folder "/d" tidyFolder).Distinct := by decide
  have horder : (Holdings.folder "/d" tidyFolder).InOrder := by
    refine (inOrder_iff hdistinct hlist).mpr ⟨List.nodup_singleton _, ?_⟩
    exact List.forall_mem_singleton.mpr ⟨⟨#[1, 2]⟩, rfl, rfl⟩
  obtain ⟨hreaches, hpurge⟩ :=
    (reach hdistinct hlist).2 horder tidyStore (fun _ _ => rfl) rfl
  refine ⟨hlist, hreaches _ List.mem_cons_self, ?_⟩
  obtain ⟨s', hpurged, hleft⟩ := hpurge ⟨9⟩
  rw [Store.sorted, List.mergeSort_singleton] at hpurged
  exact ⟨s', hpurged, hleft⟩

/-- A directory that is called `<key>.session`. -/
def foldedFolder : Holdings := .folder "/d" (.present [(.record (.ofNat 7), .directory 40 ⟨5⟩)])

/-- A symbolic link that is called `<key>.session`. -/
def linkedRecord : Holdings := .folder "/d" (.present
  [(.record (.ofNat 7), .link (some (.outside "/e")) 2 ⟨5⟩), (.outside "/e", .file ⟨#[1, 2, 3]⟩ ⟨6⟩)])

/-- A row whose `key` is written without hyphens. -/
def plainTable : Holdings :=
  .table ⟨[⟨"00000000000000000000000000000007", ⟨#[1, 2]⟩, "2024-01-01T00:00:00Z"⟩]⟩

/-- Not `InOrder`: a directory and a row without hyphens are listed, but `contains` answers `false`
and `delete` does not remove them; a link is listed with the size of its target's path. -/
theorem reach_missed :
    (foldedFolder.Distinct ∧ foldedFolder.list = .ok [⟨.ofNat 7, 40, ⟨5⟩, none⟩] ∧
      foldedFolder.contains (.ofNat 7) = .ok false ∧
      foldedFolder.delete (.ofNat 7) = (.error (.io .isDirectory), foldedFolder)) ∧
    (linkedRecord.Distinct ∧ linkedRecord.list = .ok [⟨.ofNat 7, 2, ⟨5⟩, none⟩] ∧
      linkedRecord.get (.ofNat 7) = .ok (some ⟨#[1, 2, 3]⟩)) ∧
    ∃ m, plainTable.Distinct ∧ plainTable.list = .ok [m] ∧ m.key = .ofNat 7 ∧
      plainTable.contains m.key = .ok false ∧ plainTable.delete m.key = (.ok false, plainTable) := by
  refine ⟨⟨by decide, rfl, rfl, rfl⟩, ⟨by decide, rfl, rfl⟩, _, by decide, rfl, rfl, rfl, rfl⟩

end Holdings

end SessionCache
