import SessionCache.Proofs.Store.Contents
import SessionCache.Proofs.Time.Timestamp

/-!
# Backends that hold records and nothing else

A backend into which nobody else writes is made of its records alone. `Entries` lists them in the
order of writing, and each backend writes such a list down in its own way: `Memory.ofEntries`,
`Directory.ofEntries`, `Table.ofEntries`. Every call of a backend is one of the list.

* `Memory.put_ofEntries`, `Directory.put_ofEntries`, `Table.put_ofEntries`, and the same for the
  other calls.
* `Table.list_ofEntries`, `Table.list_ofEntries_error`: a table can be listed as long as every
  record was written in a year of four digits.
-/

namespace SessionCache

/-- Keys with their bytes and the time of writing, oldest first. -/
abbrev Entries := List (Key × ByteArray × Instant)

namespace Entries

/-- `put` on entries: the entry of `key` is replaced, and comes last. -/
def put (l : Entries) (now : Instant) (key : Key) (bytes : ByteArray) : Entries :=
  l.filter (·.1 ≠ key) ++ [(key, bytes, now)]

/-- `delete` on entries. -/
def delete (l : Entries) (key : Key) : Entries := l.filter (·.1 ≠ key)

/-- The `RecordMeta` of an entry. -/
def metaOf (e : Key × ByteArray × Instant) : RecordMeta :=
  { key := e.1, size := e.2.1.size, storedAt := e.2.2 }

theorem find?_eq_lookup (l : Entries) (key : Key) :
    l.find? (·.1 = key) = (l.lookup key).map fun record => (key, record) := by
  induction l with
  | nil => rfl
  | cons e rest ih =>
    obtain ⟨other, record⟩ := e
    by_cases h : other = key
    · subst h
      simp
    · rw [List.find?_cons_of_neg (by simpa using h), ih, List.lookup_cons,
        beq_eq_false_iff_ne.mpr (Ne.symm h)]

theorem delete_of_lookup_none {l : Entries} {key : Key} (h : l.lookup key = none) :
    l.delete key = l := by
  refine List.filter_eq_self.mpr fun e he => ?_
  have hne : key ≠ e.1 := by simpa using List.lookup_eq_none_iff.mp h e he
  simpa using hne.symm

end Entries

variable (l : Entries) (now : Instant) (key : Key) (bytes : ByteArray)

/-! ## In memory -/

namespace Memory

/-- The memory with these entries. -/
def ofEntries (l : Entries) : Memory := ⟨l.map fun e => ⟨e.1, e.2.1, e.2.2⟩⟩

theorem find?_ofEntries :
    (ofEntries l).find? key = (l.lookup key).map fun record => ⟨key, record.1, record.2⟩ := by
  rw [find?, ofEntries, List.find?_map]
  change (l.find? (·.1 = key)).map _ = _
  rw [Entries.find?_eq_lookup, Option.map_map]
  rfl

@[simp]
theorem put_ofEntries : (ofEntries l).put now key bytes = ofEntries (l.put now key bytes) := by
  simp only [put, ofEntries, Entries.put, List.filter_map, List.map_append]
  rfl

@[simp] theorem get_ofEntries : (ofEntries l).get key = (l.lookup key).map (·.1) := by
  rw [get, find?_ofEntries, Option.map_map]
  rfl

@[simp] theorem delete_ofEntries :
    (ofEntries l).delete key = ((l.lookup key).isSome, ofEntries (l.delete key)) := by
  rw [delete, find?_ofEntries, Option.isSome_map]
  simp only [ofEntries, Entries.delete, List.filter_map]
  rfl

@[simp] theorem contains_ofEntries : (ofEntries l).contains key = (l.lookup key).isSome := by
  rw [contains, find?_ofEntries, Option.isSome_map]

@[simp] theorem list_ofEntries : (ofEntries l).list = l.map Entries.metaOf := by
  rw [list, ofEntries, List.map_map]
  rfl

end Memory

/-! ## In a directory -/

namespace Folder

/-- The file of each entry, under its `recordName`. -/
def files (l : Entries) : FileEntries :=
  l.map fun e => (.record e.1, .file e.2.1 e.2.2)

/-- The folder with these files. -/
def ofEntries (l : Entries) : Folder := .present (files l)

theorem plain_ofEntries : (ofEntries l).Plain := plain_of_forall fun e he => by
  obtain ⟨_, -, rfl⟩ := List.mem_map.mp he
  rfl

@[simp] theorem lookup_files : (files l).lookup (.record key) =
    (l.lookup key).map fun record => .file record.1 record.2 := by
  induction l with
  | nil => rfl
  | cons e rest ih =>
    obtain ⟨other, record⟩ := e
    rw [files, List.map_cons, List.lookup_cons, List.lookup_cons]
    by_cases h : key = other
    · subst h
      simp
    · rw [beq_eq_false_iff_ne.mpr h,
        beq_eq_false_iff_ne.mpr fun he => h (FilePlace.record_inj.mp he)]
      exact ih

@[simp] theorem filter_files : (files l).filter (·.1 ≠ .record key) = files (l.delete key) := by
  rw [files, List.filter_map, files, Entries.delete]
  congr 1
  refine List.filter_congr fun e _ => ?_
  simp [FilePlace.record_inj]

/-- `files` has no `temporaryName`. -/
theorem filter_files_temporary : (files l).filter (·.1 ≠ .temporary key) = files l := by
  refine List.filter_eq_self.mpr fun entry hentry => ?_
  obtain ⟨e, -, rfl⟩ := List.mem_map.mp hentry
  simpa using (FilePlace.temporary_ne key e.1).symm

theorem free_files : Free (files l) key where
  record size modified h := by
    rw [lookup_files] at h
    obtain ⟨record, -, h⟩ := Option.map_eq_some_iff.mp h
    cases h
  temporary size modified h := by
    obtain ⟨e, -, he⟩ := List.mem_map.mp (Assoc.mem_of_lookup h)
    exact FilePlace.temporary_ne key e.1 (congrArg Prod.fst he).symm

@[simp] theorem put_ofEntries :
    (ofEntries l).put now key bytes = (.ok (), ofEntries (l.put now key bytes)) := by
  have hsecluded : Secluded (files l) key := (plain_ofEntries l).apart.secluded key
  rw [ofEntries, put_present hsecluded (free_files l key), written,
    filter_files_temporary, setEntry, filter_files, ofEntries, Entries.put, ← Entries.delete, files,
    files, List.map_append]
  rfl

theorem reached_ofEntries : (ofEntries l).reached (.record key) =
    match l.lookup key with
    | some record => .ok (.file record.1 record.2)
    | none => .error .notFound := by
  have hown : bondAt (files l) (.record key) = .own := plain_ofEntries l _
  rw [ofEntries, reached_of_own hown, lookup_files]
  cases l.lookup key <;> rfl

@[simp] theorem get_ofEntries : (ofEntries l).get key = .ok ((l.lookup key).map (·.1)) := by
  simp only [get, reached_ofEntries]
  cases l.lookup key <;> rfl

@[simp] theorem delete_ofEntries :
    (ofEntries l).delete key = (.ok (l.lookup key).isSome, ofEntries (l.delete key)) := by
  simp only [delete, ofEntries, lookup_files, filter_files]
  cases h : l.lookup key with
  | none =>
    rw [Entries.delete_of_lookup_none h]
    rfl
  | some record => rfl

@[simp] theorem contains_ofEntries : (ofEntries l).contains key = .ok (l.lookup key).isSome := by
  simp only [contains, reached_ofEntries]
  cases l.lookup key <;> rfl

/-- `splitName` splits at the last point. -/
theorem splitName_append {stem ext : String} (hstem : stem ≠ "") (hext : '.' ∉ ext.toList) :
    splitName (stem ++ "." ++ ext) = (stem, some ext) := by
  have hreversed : (stem ++ "." ++ ext).toList.reverse =
      ext.toList.reverse ++ '.' :: stem.toList.reverse := by
    simp [String.toList_append]
  have hpoint : '.' ∉ ext.toList.reverse := by simpa using hext
  have hafter : (stem ++ "." ++ ext).toList.reverse.takeWhile (· ≠ '.') = ext.toList.reverse := by
    rw [hreversed, List.takeWhile_append_of_pos
      fun c hc => decide_eq_true (ne_of_mem_of_not_mem hc hpoint)]
    simp
  have hdrop : (stem ++ "." ++ ext).toList.reverse.drop (ext.toList.reverse.length + 1) =
      stem.toList.reverse := by
    rw [hreversed, ← List.drop_drop, List.drop_left]
    rfl
  have hne : stem.toList.reverse ≠ [] := by simpa using hstem
  unfold splitName
  simp only [hafter, hdrop, List.reverse_reverse, String.ofList_toList]

/-- `splitName` of a `recordName`. -/
theorem splitName_recordName : splitName (recordName key) = (key.text, some extension) := by
  refine splitName_append (fun h => key.chars_ne_nil ?_) (by decide)
  rw [← String.toList_ofList (l := key.chars), ← Key.text, h]
  rfl

/-- `entryMeta` of a `recordName`. -/
theorem entryMeta_record (path : String) (content : Content) :
    entryMeta path (.record key, content) =
      .ok (some { key, size := content.size, storedAt := content.modified }) := by
  simp only [entryMeta, FilePlace.record, splitName_recordName, if_true, Key.ofText?_text]

theorem metas_files (path : String) :
    metas path (files l) = .ok (l.map Entries.metaOf) := by
  induction l with
  | nil => rfl
  | cons e rest ih =>
    have hentry : entryMeta path (.record e.1, .file e.2.1 e.2.2) =
        .ok (some (Entries.metaOf e)) := entryMeta_record e.1 path _
    rw [files, List.map_cons, metas, hentry]
    change (metas path (files rest)).bind _ = _
    rw [ih]
    rfl

@[simp] theorem list_ofEntries {path : String} (h : path ≠ "") :
    (ofEntries l).list path = .ok (l.map Entries.metaOf) := by
  have hne : path.isEmpty = false := by simpa using h
  rw [ofEntries, list, hne]
  exact metas_files l path

end Folder

namespace Directory

/-- The directory with these files. -/
def ofEntries (l : Entries) : Directory := ⟨.ofEntries l, (Folder.plain_ofEntries l).apart⟩

@[simp] theorem put_ofEntries :
    (ofEntries l).put now key bytes = (.ok (), ofEntries (l.put now key bytes)) := by
  have hput := Folder.put_ofEntries l now key bytes
  have hanswer := congrArg Prod.fst hput
  have hleft := congrArg Prod.snd hput
  exact Prod.ext hanswer (Directory.ext hleft)

@[simp] theorem delete_ofEntries :
    (ofEntries l).delete key = (.ok (l.lookup key).isSome, ofEntries (l.delete key)) := by
  have hdelete := Folder.delete_ofEntries l key
  have hanswer := congrArg Prod.fst hdelete
  have hleft := congrArg Prod.snd hdelete
  exact Prod.ext hanswer (Directory.ext hleft)

@[simp] theorem get_ofEntries : (ofEntries l).get key = .ok ((l.lookup key).map (·.1)) :=
  Folder.get_ofEntries l key

@[simp] theorem contains_ofEntries : (ofEntries l).contains key = .ok (l.lookup key).isSome :=
  Folder.contains_ofEntries l key

@[simp] theorem list_ofEntries {path : String} (h : path ≠ "") :
    (ofEntries l).list path = .ok (l.map Entries.metaOf) := Folder.list_ofEntries l h

end Directory

/-! ## In a table -/

namespace Table

/-- The table with a row for each entry. -/
def ofEntries (l : Entries) : Table :=
  ⟨l.map fun e => ⟨e.1.text, e.2.1, Timestamp.numericText e.2.2⟩⟩

theorem find?_ofEntries : (ofEntries l).find? key =
    (l.lookup key).map fun record => ⟨key.text, record.1, Timestamp.numericText record.2⟩ := by
  rw [find?, ofEntries, List.find?_map]
  have hkey : (fun row : Row => decide (row.key = key.text)) ∘
      (fun e : Key × ByteArray × Instant =>
        (⟨e.1.text, e.2.1, Timestamp.numericText e.2.2⟩ : Row)) = fun e => decide (e.1 = key) := by
    funext e
    simp [Key.text_inj]
  rw [hkey, Entries.find?_eq_lookup, Option.map_map]
  rfl

theorem filter_ofEntries : (ofEntries l).rows.filter (·.key ≠ key.text) =
    (ofEntries (l.delete key)).rows := by
  simp only [ofEntries, List.filter_map, Entries.delete]
  congr 1
  refine List.filter_congr fun e _ => ?_
  simp [Key.text_inj]

@[simp]
theorem put_ofEntries : (ofEntries l).put now key bytes = ofEntries (l.put now key bytes) := by
  rw [put, insert, filter_ofEntries]
  simp only [ofEntries, Entries.put, Entries.delete, List.map_append]
  rfl

@[simp] theorem get_ofEntries : (ofEntries l).get key = (l.lookup key).map (·.1) := by
  rw [get, find?_ofEntries, Option.map_map]
  rfl

@[simp] theorem delete_ofEntries :
    (ofEntries l).delete key = ((l.lookup key).isSome, ofEntries (l.delete key)) := by
  rw [delete, find?_ofEntries, Option.isSome_map, filter_ofEntries]

@[simp] theorem contains_ofEntries : (ofEntries l).contains key = (l.lookup key).isSome := by
  rw [contains, find?_ofEntries, Option.isSome_map]

theorem rowMeta_of_shortYear {e : Key × ByteArray × Instant}
    (h : Timestamp.HasShortYear e.2.2) :
    rowMeta ⟨e.1.text, e.2.1, Timestamp.numericText e.2.2⟩ = .ok (Entries.metaOf e) := by
  simp only [rowMeta, Key.ofText?_text, Timestamp.ofText?_numericText h]
  rfl

theorem rowMeta_of_longYear {e : Key × ByteArray × Instant}
    (h : ¬Timestamp.HasShortYear e.2.2) :
    rowMeta ⟨e.1.text, e.2.1, Timestamp.numericText e.2.2⟩ =
      .error (.invalidRecord (e.1.text ++ ": bad timestamp")) := by
  simp only [rowMeta, Key.ofText?_text, Timestamp.ofText?_numericText_eq_none h]

/-- `Table.list` passes if every time is in a year of four digits. -/
@[simp] theorem list_ofEntries (h : ∀ e ∈ l, Timestamp.HasShortYear e.2.2) :
    (ofEntries l).list = .ok (l.map Entries.metaOf) := by
  rw [list, ofEntries]
  induction l with
  | nil => rfl
  | cons e rest ih =>
    rw [List.map_cons, List.mapM_cons, rowMeta_of_shortYear (h e List.mem_cons_self),
      ih fun e he => h e (List.mem_cons_of_mem _ he)]
    rfl

/-- `Table.list` fails with the first row that is not. -/
theorem list_ofEntries_error (h : ¬∀ e ∈ l, Timestamp.HasShortYear e.2.2) :
    ∃ e ∈ l, (ofEntries l).list = .error (.invalidRecord (e.1.text ++ ": bad timestamp")) := by
  rw [list, ofEntries]
  induction l with
  | nil => exact absurd (fun _ he => nomatch he) h
  | cons e rest ih =>
    rw [List.map_cons, List.mapM_cons]
    by_cases he : Timestamp.HasShortYear e.2.2
    · obtain ⟨e', he', hlist⟩ := ih fun hrest => h (List.forall_mem_cons.mpr ⟨he, hrest⟩)
      rw [rowMeta_of_shortYear he, hlist]
      exact ⟨e', List.mem_cons_of_mem _ he', rfl⟩
    · rw [rowMeta_of_longYear he]
      exact ⟨e, List.mem_cons_self, rfl⟩

end Table

end SessionCache
