import SessionCache.Files.Tree

/-!
# Following paths

A path is followed part by part, and every part is looked up in a directory: the way through a
file or through something missing leads nowhere, even if the next part goes back up.

* `Tree.walk` follows parts, `Tree.follow` a path from a working directory.
* `Tree.makeDirectories` makes a directory and those above it. If it fails, what it made before
  stays.
* `walk_append`: parts can be followed in two goes.
-/

namespace SessionCache.Files

namespace Tree

/-- `place` has an entry. -/
def isThere (t : Tree) (place : List String) : Bool := place.isEmpty || (t.find? place).isSome

/-- The place that the components lead to from `place`. -/
def walk (t : Tree) (place : List String) : List String → Except IoCause (List String)
  | [] => .ok place
  | part :: rest =>
    if !t.isDirectory place then .error .notDirectory
    else if Path.isOverlong part then .error Path.nameTooLong
    else
      let next := Path.step place part
      if t.isThere next then t.walk next rest else .error .notFound

theorem walk_append (t : Tree) (place : List String) (xs ys : List String) :
    t.walk place (xs ++ ys) = (t.walk place xs).bind fun next => t.walk next ys := by
  induction xs generalizing place with
  | nil => rfl
  | cons part rest ih =>
    simp only [List.cons_append, walk]
    split
    · rfl
    · split
      · rfl
      · split
        · exact ih _
        · rfl

/-- The place of `path`, if every directory on the way is there. -/
def follow (t : Tree) (workingDirectory : List String) (path : String) :
    Except IoCause (List String) :=
  match Path.fault? path with
  | some cause => .error cause
  | none => t.walk (Path.start workingDirectory path) (Path.parts path)

/-- `Path.Status` of `path`. It is never `.hidden`. -/
def statusAt (t : Tree) (workingDirectory : List String) (path : String) : Path.Status :=
  match t.follow workingDirectory path with
  | .ok place => if t.isFile place then .regular else .irregular
  | .error _ => .missing

/-- The bytes of the file at `path`. -/
def readAt (t : Tree) (workingDirectory : List String) (path : String) :
    Except IoCause ByteArray :=
  match t.follow workingDirectory path with
  | .ok place => t.read place
  | .error cause => .error cause

/-! ## Making directories -/

/-- `mkdir` of the directory with these components. -/
def makeDirectory (t : Tree) (now : Instant) (origin parts : List String) : Except IoCause Tree :=
  let parts := Path.withoutSlashes parts
  match parts.getLast? with
  | none => .error .alreadyExists
  | some name =>
    match t.walk origin parts.dropLast with
    | .error cause => .error cause
    | .ok place =>
      if !t.isDirectory place then .error .notDirectory
      else if Path.isOverlong name then .error Path.nameTooLong
      else if t.isThere (Path.step place name) then .error .alreadyExists
      else .ok (t.put (place ++ [name]) (.directory t.newSize now))

/-- The components lead to a directory from `origin`. -/
def leadsToDirectory (t : Tree) (origin parts : List String) : Bool :=
  match t.walk origin parts with
  | .ok place => t.isDirectory place
  | .error _ => false

/-- The failure `cause` of `mkdir`, unless the directory is there. -/
def unlessThere (t : Tree) (origin parts : List String) (cause : IoCause) : Except IoCause Unit :=
  if cause = .alreadyExists ∧ t.leadsToDirectory origin parts then .ok () else .error cause

/-- `mkdir` of the first of the directories. If that is `.notFound`, those after it, each the parent
of the one before, are made first. -/
def makeChain (t : Tree) (now : Instant) (origin : List String) :
    List (List String) → Except IoCause Unit × Tree
  | [] => (.ok (), t)
  | parts :: above =>
    match t.makeDirectory now origin parts with
    | .ok t => (.ok (), t)
    | .error .notFound =>
      match t.makeChain now origin above with
      | (.error cause, t) => (.error cause, t)
      | (.ok (), t) =>
        match t.makeDirectory now origin parts with
        | .ok t => (.ok (), t)
        | .error cause => (t.unlessThere origin parts cause, t)
    | .error cause => (t.unlessThere origin parts cause, t)

/-- The parents of `path`, nearest first. -/
def above (path : String) : List (List String) :=
  let names := Path.names path
  let least := if Path.isAbsolute path then 0 else 1
  ((List.range names.length).filter (least ≤ ·)).reverse.map names.take

/-- `mkdir -p` of the directory `path`; nothing for the empty path. -/
def makeDirectories (t : Tree) (now : Instant) (workingDirectory : List String) (path : String) :
    Except IoCause Unit × Tree :=
  if path.isEmpty then (.ok (), t)
  else
    match Path.fault? path with
    | some cause => (.error cause, t)
    | none =>
      t.makeChain now (Path.start workingDirectory path) (Path.parts path :: above path)

end Tree

end SessionCache.Files
