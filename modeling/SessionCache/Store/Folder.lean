import SessionCache.Files.Path
import SessionCache.Store.Memory

/-!
# Folders of records

Each record is a file right in a folder, named by the text of its key and the extension `session`.
A record is written under a second name first, which then takes the place of the record:
`Folder.put` is `create`, `write`, `rename`, and stops at the first that fails.

A folder may have gone, or a regular file may stand in its place; and anything may be in it, under
any names: directories, symbolic links, files with more than one name, names that are no text.

* `Folder.create`, `Folder.write` and what reads (`Folder.reached`) follow symbolic links;
  `Folder.rename`, `Folder.delete` and `Folder.list` do not.
* Writing to a file with more than one name is seen under all of them (`Folder.update`).
-/

namespace SessionCache

/-! ## Places -/

/-- A place in the file system, as it is seen from a folder. -/
inductive FilePlace where
  /-- An entry of the folder by its name. -/
  | named (name : String)
  /-- An entry of the folder whose name is no UTF-8 text. -/
  | undecodable (name : ByteArray) (h : String.fromUTF8? name = none)
  /-- A place that is not an entry of the folder. -/
  | outside (path : String)
  deriving DecidableEq

/-- What stands at a place. -/
inductive Content where
  /-- A regular file of which this is the only name. -/
  | file (bytes : ByteArray) (modified : Instant)
  /-- A regular file with further names: the places that are `.shared` with the same `number` are
  names of one file. -/
  | shared (number : Nat) (bytes : ByteArray) (modified : Instant)
  /-- A directory, with the size that the file system tells. -/
  | directory (size : Nat) (modified : Instant)
  /-- A symbolic link, the place that its text leads to, if any, and the length of that text. -/
  | link (target : Option FilePlace) (size : Nat) (modified : Instant)
  deriving DecidableEq

namespace Content

/-- The size that the file system tells of what stands at the place itself, links not followed. -/
def size : Content → Nat
  | .file bytes _ | .shared _ bytes _ => bytes.size
  | .directory size _ | .link _ size _ => size

/-- The time of the last change that the file system tells, links not followed. -/
def modified : Content → Instant
  | .file _ modified | .shared _ _ modified | .directory _ modified | .link _ _ modified => modified

/-- The bytes of a regular file. -/
def bytes? : Content → Option ByteArray
  | .file bytes _ | .shared _ bytes _ => some bytes
  | .directory _ _ | .link _ _ _ => none

end Content

/-- What stands at each place, each place at most once. -/
abbrev FileEntries := List (FilePlace × Content)

/-- What the path of a file store leads to. -/
inductive Folder where
  /-- A directory: its entries, and what stands at the places elsewhere that its links lead to. -/
  | present (entries : FileEntries)
  /-- There is nothing at the path. -/
  | missing
  /-- There is something at the path that is no directory. -/
  | blocked
  deriving DecidableEq

namespace Folder

/-! ## Names of records -/

/-- The extension `session` of records. -/
def extension : String := "session"

/-- The name `<key>.session` of the record of `key`. -/
def recordName (key : Key) : String := key.text ++ "." ++ extension

/-- The name `<key>.session.tmp` under which the record of `key` is written first. -/
def temporaryName (key : Key) : String := recordName key ++ ".tmp"

/-- A name split at its last point into stem and extension; a point at the very start begins no
extension. -/
def splitName (name : String) : String × Option String :=
  let reversed := name.toList.reverse
  let after := reversed.takeWhile (· ≠ '.')
  match reversed.drop (after.length + 1) with
  | [] => (name, none)
  | stem => (String.ofList stem.reverse, some (String.ofList after.reverse))

/-- Whether a name that is no text ends in `.session`. -/
def isRecordLike (name : ByteArray) : Bool :=
  ("." ++ extension).toUTF8.toList.isSuffixOf name.toList

end Folder

namespace FilePlace

/-- The place `recordName key`. -/
def record (key : Key) : FilePlace := .named (Folder.recordName key)

/-- The place `temporaryName key`. -/
def temporary (key : Key) : FilePlace := .named (Folder.temporaryName key)

end FilePlace

namespace Folder

/-! ## The file system -/

/-- Opens a store: makes the directory where there is none, and fails with `.alreadyExists` on
something else. -/
def opened : Folder → Except StoreError Folder
  | .present entries => .ok (.present entries)
  | .missing => .ok (.present [])
  | .blocked => .error (.io .alreadyExists)

/-- The directory removed with everything in it; what is no directory stays. -/
def removed : Folder → Folder
  | .present _ => .missing
  | other => other

/-- How many symbolic links may be followed on one way. -/
def linkLimit : Nat := 40

/-- The error for a way with more than `linkLimit` links. -/
def tooManyLinks : IoCause := .other "Too many levels of symbolic links (os error 40)"

/-- The place that is reached from `place` by following at most `links` symbolic links. -/
def follow (entries : FileEntries) (links : Nat) (place : FilePlace) : Except IoCause FilePlace :=
  match entries.lookup place with
  | some (.link target _ _) =>
    match links, target with
    | 0, _ => .error tooManyLinks
    | _ + 1, none => .error .notFound
    | links + 1, some target => follow entries links target
  | _ => .ok place

/-- What stands at the place that `follow` reaches, or why it cannot be told. -/
def reached (f : Folder) (place : FilePlace) : Except IoCause Content :=
  match f with
  | .present entries => do
    match entries.lookup (← follow entries linkLimit place) with
    | some content => .ok content
    | none => .error .notFound
  | .missing => .error .notFound
  | .blocked => .error .notDirectory

/-- Puts `content` at `place`, instead of what was there. -/
def setEntry (place : FilePlace) (content : Content) (entries : FileEntries) : FileEntries :=
  entries.filter (·.1 ≠ place) ++ [(place, content)]

/-- Gives the file at `place` other bytes; one with further names has them under each of its
names. -/
def update (place : FilePlace) (bytes : ByteArray) (now : Instant) (entries : FileEntries) :
    FileEntries :=
  match entries.lookup place with
  | some (.shared number _ _) => entries.map fun e =>
    match e.2 with
    | .shared other _ _ => if other = number then (e.1, .shared number bytes now) else e
    | _ => e
  | _ => setEntry place (.file bytes now) entries

/-- Makes an empty file where `follow` leads to from `place`, or empties the file that is there. -/
def create (f : Folder) (now : Instant) (place : FilePlace) : Except IoCause Folder :=
  match f with
  | .present entries => do
    let target ← follow entries linkLimit place
    match entries.lookup target with
    | some (.directory _ _) => .error .isDirectory
    | _ => .ok (.present (update target .empty now entries))
  | .missing => .error .notFound
  | .blocked => .error .notDirectory

/-- Appends `bytes` to the file where `follow` leads to from `place`. -/
def write (f : Folder) (now : Instant) (place : FilePlace) (bytes : ByteArray) :
    Except IoCause Folder :=
  match f with
  | .present entries => do
    let target ← follow entries linkLimit place
    match entries.lookup target with
    | some content =>
      match content.bytes? with
      | some old => .ok (.present (update target (old ++ bytes) now entries))
      | none => .error .isDirectory
    | none => .error .notFound
  | .missing => .error .notFound
  | .blocked => .error .notDirectory

/-- Whether two contents are `.shared` with the same number. -/
def isOneFile : Content → Content → Bool
  | .shared number _ _, .shared other _ _ => number = other
  | _, _ => false

/-- Renames `source` to `target`, which must not be a directory. Two names of one file stay as they
are. -/
def rename (f : Folder) (source target : FilePlace) : Except IoCause Folder :=
  match f with
  | .present entries =>
    match entries.lookup source with
    | none => .error .notFound
    | some content =>
      match entries.lookup target with
      | some (.directory _ _) => .error .isDirectory
      | there? =>
        if there?.any (isOneFile content) then .ok f
        else .ok (.present (setEntry target content (entries.filter (·.1 ≠ source))))
  | .missing => .error .notFound
  | .blocked => .error .notDirectory

/-! ## Records -/

/-- Writes a record: `create` and `write` under the temporary name, then `rename`. A step that fails
leaves what the steps before it did. -/
def put (f : Folder) (now : Instant) (key : Key) (bytes : ByteArray) :
    Except StoreError Unit × Folder :=
  match f.create now (.temporary key) with
  | .error cause => (.error (.io cause), f)
  | .ok f₁ =>
    match f₁.write now (.temporary key) bytes with
    | .error cause => (.error (.io cause), f₁)
    | .ok f₂ =>
      match f₂.rename (.temporary key) (.record key) with
      | .error cause => (.error (.io cause), f₂)
      | .ok f₃ => (.ok (), f₃)

/-- The bytes of the record of `key`; `none` if `reached` answers `.notFound`. -/
def get (f : Folder) (key : Key) : Except StoreError (Option ByteArray) :=
  match f.reached (.record key) with
  | .ok content =>
    match content.bytes? with
    | some bytes => .ok (some bytes)
    | none => .error (.io .isDirectory)
  | .error .notFound => .ok none
  | .error cause => .error (.io cause)

/-- Deletes the entry of the record of `key`, also if it is a link; `true` if there was one. -/
def delete (f : Folder) (key : Key) : Except StoreError Bool × Folder :=
  match f with
  | .present entries =>
    match entries.lookup (.record key) with
    | some (.directory _ _) => (.error (.io .isDirectory), f)
    | some _ => (.ok true, .present (entries.filter (·.1 ≠ .record key)))
    | none => (.ok false, f)
  | .missing => (.ok false, f)
  | .blocked => (.error (.io .notDirectory), f)

/-- Whether the record of `key` is `reached` and is a regular file. -/
def contains (f : Folder) (key : Key) : Except StoreError Bool :=
  match f.reached (.record key) with
  | .ok content => .ok content.bytes?.isSome
  | .error .notFound => .ok false
  | .error cause => .error (.io cause)

/-- What `list` reads from an entry: `none` if its extension is not `session`, `.invalidRecord` if
its stem is no key in any spelling. `path` is the path of the folder, for the message. -/
def entryMeta (path : String) (entry : FilePlace × Content) :
    Except StoreError (Option RecordMeta) :=
  match entry.1 with
  | .named name =>
    let (stem, ext) := splitName name
    if ext = some extension then
      match Key.ofText? stem with
      | none => .error (.invalidRecord (Path.join path name))
      | some key => .ok (some { key, size := entry.2.size, storedAt := entry.2.modified })
    else .ok none
  | .undecodable name _ =>
    if isRecordLike name then .error (.invalidRecord (Path.join path (Text.Letters.shown name)))
    else .ok none
  | .outside _ => .ok none

/-- `entryMeta` of each entry; the first error is the answer. -/
def metas (path : String) : FileEntries → Except StoreError (List RecordMeta)
  | [] => .ok []
  | entry :: rest => do
    let first ← entryMeta path entry
    let others ← metas path rest
    return match first with
      | some m => m :: others
      | none => others

/-- The `RecordMeta` of every record. The empty path stands for the working directory where names
are looked up, but cannot be listed. -/
def list (f : Folder) (path : String) : Except StoreError (List RecordMeta) :=
  match f with
  | .present entries => if path.isEmpty then .error (.io .notFound) else metas path entries
  | .missing => .error (.io .notFound)
  | .blocked => .error (.io .notDirectory)

/-! ## By hand -/

/-- The entry of the folder that the parts of a path lead to, if they do not lead elsewhere; `below`
tells whether the way is inside of one of its directories. -/
def nameAlong? (entries : FileEntries) (below : Bool) : List String → Option String
  | [] => none
  | [last] =>
    if below || Path.isHere last || last = ".." || Path.isOverlong last then none else some last
  | part :: rest =>
    if Path.isHere part then nameAlong? entries below rest
    else if part = ".." then if below then nameAlong? entries false rest else none
    else
      match below, entries.lookup (.named part) with
      | false, some (.directory _ _) => nameAlong? entries true rest
      | _, _ => none

/-- The entry of the folder that `path` leads to from it, or why it leads to none. -/
def nameOf (f : Folder) (path : String) (parts : List String) : Except IoCause String :=
  match f, Path.fault? path with
  | _, some cause => .error cause
  | .present entries, none =>
    match if Path.isAbsolute path then none else nameAlong? entries false parts with
    | some name => .ok name
    | none => .error .notFound
  | .missing, none => .error .notFound
  | .blocked, none => .error .notDirectory

/-- Writes a file into the folder, as a user would by hand. -/
def placeFile (f : Folder) (now : Instant) (path : String) (bytes : ByteArray) :
    Except IoCause Folder := do
  let name ← f.nameOf path (Path.parts path)
  (← f.create now (.named name)).write now (.named name) bytes

/-- Makes a directory in the folder; `size` is what the file system will tell of it. -/
def makeDirectory (f : Folder) (now : Instant) (size : Nat) (path : String) :
    Except IoCause Folder := do
  let name ← f.nameOf path (Path.withoutSlashes (Path.parts path))
  match f with
  | .present entries =>
    if (entries.lookup (.named name)).isSome then .error .alreadyExists
    else .ok (.present (setEntry (.named name) (.directory size now) entries))
  | .missing => .error .notFound
  | .blocked => .error .notDirectory

/-- The name of an entry of the folder. -/
def nameIn? : FilePlace → Option String
  | .named name => some name
  | .undecodable name _ => some (Text.Letters.shown name)
  | .outside _ => none

/-- The names of the entries, as a user lists them. -/
def names (f : Folder) : Except IoCause (List String) :=
  match f with
  | .present entries => .ok (entries.filterMap fun e => nameIn? e.1)
  | .missing => .error .notFound
  | .blocked => .error .notDirectory

end Folder

end SessionCache
