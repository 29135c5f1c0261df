import SessionCache.Files.Path
import SessionCache.Store.Directory

/-!
# A tree of files

Files and directories by the names that lead to them from the root. The root is always there.

* `Tree.read`, `Tree.write`: a file at a place.
* `Tree.asDirectory` is what a store sees of a place; `Tree.putDirectory` puts it back.
* `Tree.changes` tells what has to be done to make one tree of another.
-/

namespace SessionCache.Files

/-- A file or a directory. -/
inductive Entry where
  | file (bytes : ByteArray) (modified : Instant)
  /-- A directory, with the size that the file system reports. -/
  | directory (size : Nat) (modified : Instant)
  deriving DecidableEq

/-- The `Content` of an entry. -/
def Entry.content : Entry → Content
  | .file bytes modified => .file bytes modified
  | .directory size modified => .directory size modified

/-- A file system without links: each place has at most one entry. -/
structure Tree where
  entries : List (List String × Entry) := []
  /-- The reported size of a directory that was just made. -/
  newSize : Nat := 0

namespace Tree

/-- The entry at `place`. -/
def find? (t : Tree) (place : List String) : Option Entry := t.entries.lookup place

/-- `place` is a directory; the root always is. -/
def isDirectory (t : Tree) (place : List String) : Bool :=
  place.isEmpty || match t.find? place with
    | some (.directory _ _) => true
    | _ => false

/-- `place` is a file. -/
def isFile (t : Tree) (place : List String) : Bool :=
  match t.find? place with
  | some (.file _ _) => true
  | _ => false

/-- Puts `entry` at `place`, instead of what is there. -/
def put (t : Tree) (place : List String) (entry : Entry) : Tree :=
  { t with entries := t.entries.filter (·.1 ≠ place) ++ [(place, entry)] }

/-- Removes `place` and everything below it. -/
def remove (t : Tree) (place : List String) : Tree :=
  { t with entries := t.entries.filter fun entry => !place.isPrefixOf entry.1 }

/-- The failure of a walk along `place`: a component is missing, or is a file. -/
def obstacle? (t : Tree) : List String → List String → Option IoCause
  | _, [] => none
  | _, [_] => none
  | base, name :: rest =>
    let place := base ++ [name]
    match t.find? place with
    | some (.directory _ _) => t.obstacle? place rest
    | some (.file _ _) => some .notDirectory
    | none => some .notFound

/-- The bytes of the file at `place`. -/
def read (t : Tree) (place : List String) : Except IoCause ByteArray :=
  match t.obstacle? [] place with
  | some cause => .error cause
  | none =>
    match t.find? place with
    | some (.file bytes _) => .ok bytes
    | some (.directory _ _) => .error .isDirectory
    | none => if place.isEmpty then .error .isDirectory else .error .notFound

/-- Writes a file at `place`, whose directory has to be there. -/
def write (t : Tree) (now : Instant) (place : List String) (bytes : ByteArray) :
    Except IoCause Tree :=
  match t.obstacle? [] place with
  | some cause => .error cause
  | none =>
    if t.isDirectory place then .error .isDirectory else .ok (t.put place (.file bytes now))

section Put

variable (t : Tree) {place : List String} (entry : Entry)

@[simp]
theorem find?_put (other : List String) :
    (t.put place entry).find? other = if other = place then some entry else t.find? other :=
  Assoc.lookup_replace t.entries place other entry

/-- The entry at the end of a path is no obstacle on it. -/
theorem obstacle?_put {base rest : List String} (h : base ++ rest = place) :
    (t.put place entry).obstacle? base rest = t.obstacle? base rest := by
  induction rest generalizing base with
  | nil => rfl
  | cons name rest ih =>
    cases rest with
    | nil => rfl
    | cons next rest =>
      have hne : base ++ [name] ≠ place := by
        intro he
        have hlength := congrArg List.length (h.trans he.symm)
        simp at hlength
      have hnext : base ++ [name] ++ next :: rest = place := by simpa using h
      have hput : (t.put place entry).obstacle? (base ++ [name]) (next :: rest) =
          t.obstacle? (base ++ [name]) (next :: rest) := ih hnext
      simp only [obstacle?, find?_put, if_neg hne] at hput ⊢
      rw [hput]

/-- A file that was put at `place` is read there. -/
theorem read_put (bytes : ByteArray) (modified : Instant) (h : t.obstacle? [] place = none) :
    (t.put place (.file bytes modified)).read place = .ok bytes := by
  have hnone : (t.put place (.file bytes modified)).obstacle? [] place = none :=
    (t.obstacle?_put _ rfl).trans h
  rw [read, hnone, find?_put, if_pos rfl]

end Put

/-! ## What a store sees -/

/-- The name and content of an entry directly in `place`. -/
def child? (place : List String) (entry : List String × Entry) : Option (FilePlace × Content) :=
  if entry.1.dropLast = place then
    entry.1.getLast?.map fun name => (.named name, entry.2.content)
  else none

/-- The directory at `place` as a `Folder`. -/
def asFolder (t : Tree) (place : List String) : Folder :=
  if t.isDirectory place then .present (t.entries.filterMap (child? place))
  else if t.isFile place then .blocked
  else .missing

/-- `asFolder` has neither links nor second names. -/
theorem plain_asFolder (t : Tree) (place : List String) : (t.asFolder place).Plain := by
  rw [asFolder]
  split
  · refine Folder.plain_of_forall fun e he => ?_
    obtain ⟨⟨path, entry⟩, -, hentry⟩ := List.mem_filterMap.mp he
    rw [child?] at hentry
    split at hentry
    · obtain ⟨name, -, rfl⟩ := Option.map_eq_some_iff.mp hentry
      cases entry <;> rfl
    · cases hentry
  · split <;> exact fun _ => rfl

/-- `asFolder` as a `Directory`. -/
def asDirectory (t : Tree) (place : List String) : Directory :=
  ⟨t.asFolder place, (t.plain_asFolder place).apart⟩

/-- The entry is a file directly in `place`. -/
def isFileIn (place : List String) (entry : List String × Entry) : Bool :=
  (child? place entry).isSome && match entry.2 with
    | .file _ _ => true
    | .directory _ _ => false

/-- The entry in the tree of a file of the folder at `place`. -/
def fileOf? (place : List String) (e : FilePlace × Content) : Option (List String × Entry) :=
  match e with
  | (.named name, .file bytes modified) => some (place ++ [name], .file bytes modified)
  | _ => none

/-- The tree after the files directly in `place` became those of `d`. -/
def putDirectory (t : Tree) (place : List String) (d : Directory) : Tree :=
  match d.folder with
  | .present entries =>
    { t with entries := (t.entries.filter fun entry => !isFileIn place entry) ++
        entries.filterMap (fileOf? place) }
  | .missing | .blocked => t

end Tree

/-! ## Changes -/

/-- A call that changes one entry. -/
inductive Change where
  | makeDirectory (place : List String)
  | write (place : List String) (bytes : ByteArray)
  | delete (place : List String)
  deriving DecidableEq

namespace Tree

/-- The call that makes `entry` of what `old` has there; `none` if it is the same. -/
def changeTo? (old : Tree) (entry : List String × Entry) : Option Change :=
  if old.find? entry.1 = some entry.2 then none
  else
    match entry.2 with
    | .file bytes _ => some (.write entry.1 bytes)
    | .directory _ _ => if old.isDirectory entry.1 then none else some (.makeDirectory entry.1)

/-- The calls that lead from `old` to `new`, in the order of the entries of `new`. -/
def changes (old new : Tree) : List Change :=
  new.entries.filterMap old.changeTo? ++
    (old.entries.filter fun entry => (new.find? entry.1).isNone).map fun entry => .delete entry.1

end Tree

end SessionCache.Files
