import SessionCache.Association
import SessionCache.Store.Folder

/-!
# Directories in which records are apart

A `Folder` can hold anything, links among it, and then one record can be written through another. A
`Directory` is a folder in which that cannot happen (`Folder.Apart`), and every operation keeps it so.

* `Folder.bondAt`: what ties a place to others; a symbolic link, or further names of its file.
* `Folder.Derived`: what an operation leaves has no new links and names; then records stay apart
  (`Folder.Apart.of_derived`).
* `Folder.Apart.put`, `Folder.Apart.delete`, `Folder.Apart.placeFile`,
  `Folder.Apart.makeDirectory`: the operations.
* `Folder.Plain.apart`: in a folder without links and shared files, records are apart.
-/

namespace SessionCache

/-- How an entry of a folder is tied to other places. -/
inductive Bond where
  /-- Not at all: no entry, a directory, or a file of which this is the only name. -/
  | own
  /-- It is a file that has further names. -/
  | shared
  | link (target : Option FilePlace)
  deriving DecidableEq

/-- How `content` is tied to other places. -/
def Content.bond : Content → Bond
  | .file _ _ | .directory _ _ => .own
  | .shared _ _ _ => .shared
  | .link target _ _ => .link target

namespace Folder

/-! ## Entries after an operation -/

section Entries

variable (entries : FileEntries) (place other : FilePlace) (content : Content)

@[simp, grind =]
theorem lookup_setEntry : (setEntry place content entries).lookup other =
    if other = place then some content else entries.lookup other :=
  Assoc.lookup_replace entries place other content

@[simp] theorem filter_setEntry :
    (setEntry place content entries).filter (·.1 ≠ place) = entries.filter (·.1 ≠ place) := by
  simp [setEntry, List.filter_append, List.filter_filter]

@[simp] theorem setEntry_setEntry (content' : Content) :
    setEntry place content' (setEntry place content entries) = setEntry place content' entries := by
  rw [setEntry, filter_setEntry, ← setEntry]

/-- How the entry at `place` is tied to other places; `.own` where there is none. -/
def bondAt : Bond := ((entries.lookup place).map Content.bond).getD .own

@[simp] theorem bondAt_setEntry : bondAt (setEntry place content entries) other =
    if other = place then content.bond else bondAt entries other := by
  rw [bondAt, lookup_setEntry]
  split <;> rfl

@[simp] theorem bondAt_filter : bondAt (entries.filter (·.1 ≠ place)) other =
    if other = place then .own else bondAt entries other := by
  rw [bondAt, Assoc.lookup_filter_ne]
  split <;> rfl

end Entries

/-! ## What an operation leaves -/

/-- Each place is tied as it was before, or not at all. -/
def Derived (entries entries' : FileEntries) : Prop :=
  ∀ place, bondAt entries' place = .own ∨ bondAt entries' place = bondAt entries place

theorem Derived.trans {entries entries' entries'' : FileEntries} (h : Derived entries entries')
    (h' : Derived entries' entries'') : Derived entries entries'' := fun place => by
  obtain hown | hsame := h' place
  · exact .inl hown
  · rw [hsame]
    exact h place

theorem derived_setEntry {content : Content} (h : content.bond = .own) (entries : FileEntries)
    (place : FilePlace) : Derived entries (setEntry place content entries) := fun other => by
  rw [bondAt_setEntry]
  split
  · exact .inl h
  · exact .inr rfl

theorem derived_filter (entries : FileEntries) (place : FilePlace) :
    Derived entries (entries.filter (·.1 ≠ place)) := fun other => by
  rw [bondAt_filter]
  split
  · exact .inl rfl
  · exact .inr rfl

/-- Where `f` keeps the name of each entry and its `Content.bond`, `bondAt` stays what it was. -/
theorem bondAt_map (entries : FileEntries) {f : FilePlace × Content → FilePlace × Content}
    (hname : ∀ e, (f e).1 = e.1) (hbond : ∀ e, (f e).2.bond = e.2.bond) (place : FilePlace) :
    bondAt (entries.map f) place = bondAt entries place := by
  induction entries with
  | nil => rfl
  | cons e rest ih =>
    rw [bondAt, bondAt] at ih ⊢
    rw [List.map_cons, List.lookup_cons, List.lookup_cons, hname]
    by_cases h : place = e.1
    · rw [beq_iff_eq.mpr h, Option.map_some, Option.map_some, hbond]
    · rw [beq_eq_false_iff_ne.mpr h, ih]

theorem derived_update (entries : FileEntries) (place : FilePlace) (bytes : ByteArray)
    (now : Instant) : Derived entries (update place bytes now entries) := by
  rw [update]
  split
  · refine fun other => .inr (bondAt_map entries (fun e => ?_) (fun e => ?_) other) <;>
    · obtain ⟨name, content⟩ := e
      cases content with
      | shared number' _ _ => dsimp only; split <;> rfl
      | _ => rfl
  · exact derived_setEntry rfl entries place

/-! ## Folders -/

/-- The entries of a folder that is `.present`. -/
def entries : Folder → FileEntries
  | .present entries => entries
  | .missing | .blocked => []

@[simp] theorem entries_present (entries : FileEntries) : (present entries).entries = entries := rfl

/-- The name of a record is no symbolic link, and the name it is first written under is neither a
link nor a further name of some file. -/
def Apart (f : Folder) : Prop :=
  ∀ key, bondAt f.entries (.temporary key) = .own ∧
    ∀ target, bondAt f.entries (.record key) ≠ .link target

/-- No entry is a link, and no file has a further name. -/
def Plain (f : Folder) : Prop := ∀ place, bondAt f.entries place = .own

theorem Plain.apart {f : Folder} (h : f.Plain) : f.Apart := fun _ =>
  ⟨h _, fun target hlink => by rw [h] at hlink; cases hlink⟩

theorem plain_of_forall {entries : FileEntries} (h : ∀ e ∈ entries, e.2.bond = .own) :
    (present entries).Plain := fun place => by
  rw [Folder.entries, bondAt]
  cases hlookup : entries.lookup place with
  | none => rfl
  | some content =>
    obtain ⟨l₁, l₂, rfl, -⟩ := List.lookup_eq_some_iff.mp hlookup
    exact h (place, content) (by simp)

section Operations

variable {f f' : Folder} {now : Instant} {place source target : FilePlace} {bytes : ByteArray}

theorem derived_create (h : f.create now place = .ok f') : Derived f.entries f'.entries := by
  cases f with
  | present entries =>
    rw [create] at h
    cases hfollow : follow entries linkLimit place with
    | error cause => rw [hfollow] at h; cases h
    | ok target =>
      simp only [hfollow, bind, Except.bind] at h
      split at h
      · cases h
      · cases h
        exact derived_update entries target _ now
  | missing => cases h
  | blocked => cases h

theorem derived_write (h : f.write now place bytes = .ok f') : Derived f.entries f'.entries := by
  cases f with
  | present entries =>
    rw [write] at h
    cases hfollow : follow entries linkLimit place with
    | error cause => rw [hfollow] at h; cases h
    | ok target =>
      simp only [hfollow, bind, Except.bind] at h
      split at h
      · split at h
        · cases h
          exact derived_update entries target _ now
        · cases h
      · cases h
  | missing => cases h
  | blocked => cases h

/-- A `rename` from a place that is not tied to others ties no place to others that was not. -/
theorem derived_rename (hown : bondAt f.entries source = .own)
    (h : f.rename source target = .ok f') : Derived f.entries f'.entries := by
  cases f with
  | present entries =>
    rw [rename] at h
    cases hsource : entries.lookup source with
    | none => rw [hsource] at h; cases h
    | some content =>
      rw [Folder.entries, bondAt, hsource] at hown
      rw [hsource] at h
      dsimp only at h
      split at h
      · cases h
      · split at h
        · cases h
          exact fun _ => .inr rfl
        · cases h
          exact (derived_filter entries source).trans (derived_setEntry hown _ target)
  | missing => cases h
  | blocked => cases h

/-- `Apart` stays where no place is newly tied to others. -/
theorem Apart.of_derived (h : f.Apart) (hd : Derived f.entries f'.entries) : f'.Apart := by
  refine fun key => ⟨(hd _).elim id fun hsame => hsame.trans (h key).1, fun target hlink => ?_⟩
  obtain hown | hsame := hd (.record key)
  · rw [hown] at hlink
    cases hlink
  · exact (h key).2 target (hsame.symm.trans hlink)

theorem Apart.opened (h : f.Apart) (hopened : f.opened = .ok f') : f'.Apart := by
  cases f with
  | present entries => cases hopened; exact h
  | missing => cases hopened; exact Plain.apart fun _ => rfl
  | blocked => cases hopened

theorem Apart.removed (h : f.Apart) : f.removed.Apart := by
  cases f with
  | present entries => exact Plain.apart fun _ => rfl
  | missing => exact h
  | blocked => exact h

theorem Apart.put (h : f.Apart) (now : Instant) (key : Key) (bytes : ByteArray) :
    (f.put now key bytes).2.Apart := by
  rw [Folder.put]
  split
  · exact h
  · next f₁ hcreate =>
    have h₁ : f₁.Apart := h.of_derived (derived_create hcreate)
    split
    · exact h₁
    · next f₂ hwrite =>
      have h₂ : f₂.Apart := h₁.of_derived (derived_write hwrite)
      split
      · exact h₂
      · next f₃ hrename => exact h₂.of_derived (derived_rename (h₂ key).1 hrename)

theorem Apart.delete (h : f.Apart) (key : Key) : (f.delete key).2.Apart := by
  cases f with
  | present entries =>
    rw [Folder.delete]
    split
    · exact h
    · exact h.of_derived (derived_filter entries _)
    · exact h
  | missing => exact h
  | blocked => exact h

theorem Apart.placeFile (h : f.Apart) {path : String}
    (hplace : f.placeFile now path bytes = .ok f') : f'.Apart := by
  rw [Folder.placeFile] at hplace
  cases hname : f.nameOf path (Path.parts path) with
  | error cause => rw [hname] at hplace; cases hplace
  | ok name =>
    simp only [hname, bind, Except.bind] at hplace
    cases hcreate : f.create now (.named name) with
    | error cause => rw [hcreate] at hplace; cases hplace
    | ok f₁ =>
      simp only [hcreate] at hplace
      exact (h.of_derived (derived_create hcreate)).of_derived (derived_write hplace)

theorem Apart.makeDirectory (h : f.Apart) {size : Nat} {path : String}
    (hmake : f.makeDirectory now size path = .ok f') : f'.Apart := by
  rw [Folder.makeDirectory] at hmake
  cases hname : f.nameOf path (Path.withoutSlashes (Path.parts path)) with
  | error cause => rw [hname] at hmake; cases hmake
  | ok name =>
    simp only [hname, bind, Except.bind] at hmake
    cases f with
    | present entries =>
      dsimp only at hmake
      split at hmake
      · cases hmake
      · cases hmake
        exact h.of_derived (derived_setEntry rfl entries _)
    | missing => cases hmake
    | blocked => cases hmake

end Operations

end Folder

/-! ## Directories -/

/-- A folder together with the proof that it is `Folder.Apart`: what `Backend` keeps its records
in. -/
@[ext]
structure Directory where
  folder : Folder
  apart : folder.Apart
  deriving DecidableEq

namespace Directory

variable (d : Directory) (now : Instant) (key : Key) (path : String) (bytes : ByteArray)

/-- A directory without entries. -/
def empty : Directory := ⟨.present [], Folder.Plain.apart fun _ => rfl⟩

/-- A regular file where the directory should be. -/
def blocked : Directory := ⟨.blocked, Folder.Plain.apart fun _ => rfl⟩

/-- The `Directory` of the folder that `r` gives; `h` says that it is `Apart`. -/
def ofResult {ε : Type} (r : Except ε Folder) (h : ∀ f, r = .ok f → f.Apart) :
    Except ε Directory :=
  match r, h with
  | .ok f, h => .ok ⟨f, h f rfl⟩
  | .error e, _ => .error e

/-- `Folder.opened`. -/
def opened : Except StoreError Directory := ofResult d.folder.opened fun _ => d.apart.opened

/-- `Folder.removed`. -/
def removed : Directory := ⟨d.folder.removed, d.apart.removed⟩

/-- `Folder.put`. -/
def put : Except StoreError Unit × Directory :=
  ((d.folder.put now key bytes).1, ⟨(d.folder.put now key bytes).2, d.apart.put now key bytes⟩)

@[simp] theorem put_fst : (d.put now key bytes).1 = (d.folder.put now key bytes).1 := rfl

@[simp] theorem folder_put : (d.put now key bytes).2.folder = (d.folder.put now key bytes).2 := rfl

/-- `Folder.get`. -/
def get : Except StoreError (Option ByteArray) := d.folder.get key

/-- `Folder.delete`. -/
def delete : Except StoreError Bool × Directory :=
  ((d.folder.delete key).1, ⟨(d.folder.delete key).2, d.apart.delete key⟩)

@[simp] theorem delete_fst : (d.delete key).1 = (d.folder.delete key).1 := rfl

@[simp] theorem folder_delete : (d.delete key).2.folder = (d.folder.delete key).2 := rfl

/-- `Folder.contains`. -/
def contains : Except StoreError Bool := d.folder.contains key

/-- `Folder.list`. -/
def list : Except StoreError (List RecordMeta) := d.folder.list path

/-- `Folder.placeFile`. -/
def placeFile : Except IoCause Directory :=
  ofResult (d.folder.placeFile now path bytes) fun _ => d.apart.placeFile

/-- `Folder.makeDirectory`. -/
def makeDirectory (size : Nat) : Except IoCause Directory :=
  ofResult (d.folder.makeDirectory now size path) fun _ => d.apart.makeDirectory

end Directory

end SessionCache
