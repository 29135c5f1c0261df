import SessionCache.Command.Site
import SessionCache.Store.DatabaseName
import SessionCache.Store.Sessions

/-!
# Opening stores

A command gets the store of a configuration from the files, works with it, and puts back what
became of it.

* `Action.openStore` and `Action.keep` are the two ends of that, `Action.withStore` is all of it.
* `databasePlace` tells where the file of a database is. A path is taken to it as a text: each `..`
  takes back a name, whether there is anything by that name or not.
-/

namespace SessionCache.Command

/-- How a store is kept at the end of a command. -/
inductive Keeping where
  | nowhere
  | directory (place : List String)
  /-- In a database file; `logged` if changes go to a write-ahead log. -/
  | database (place : List String) (logged : Bool)
  deriving DecidableEq

/-- A store that a command has opened. -/
structure Opened where
  store : Store
  keeping : Keeping := .nowhere

/-- A store over `backend`, in the order in which that lists its records. -/
def storeOver (backend : Backend) : Store where
  backend := backend
  precedes _ _ := false

/-! ## Databases -/

/-- The file is not a database. -/
def noDatabase : StoreError := .database "file is not a database"

/-- The file cannot be opened. -/
def cannotOpen : StoreError := .database "unable to open database file"

/-- The database is read-only. -/
def readOnly : StoreError := .database "attempt to write a readonly database"

/-- The limit on the bytes of the path of a database file. -/
def longestDatabasePath : Nat := 504

/-- The bytes of `place` as an absolute path. -/
def pathLength (place : List String) : Nat :=
  place.foldl (fun n name => n + name.utf8ByteSize + 1) 0

/-- The place after one more component of the path of a database file. -/
def databaseStep (files : Files.Tree) (place : List String) (part : String) :
    Except IoCause (List String) :=
  let next := Path.step place part
  if next.length ≤ place.length then .ok next
  else if files.isFile place then .error .notDirectory
  else if files.isDirectory place && Path.isOverlong part then .error Path.nameTooLong
  else if longestDatabasePath + 8 ≤ pathLength next then .error Path.nameTooLong
  else .ok next

/-- The place of a database file, whose directory has to be there. -/
def databasePlace (files : Files.Tree) (workingDirectory : List String) (path : String) :
    Except IoCause (List String) := do
  let place ← (Path.parts path).foldlM (databaseStep files) (Path.start workingDirectory path)
  if place.isEmpty then throw .isDirectory
  else if longestDatabasePath < pathLength place then throw Path.nameTooLong
  else if files.isDirectory place.dropLast then return place
  else throw .notFound

/-- A store over `table` to which every change fails with `readOnly`. -/
def readOnlyStore (table : Table) : Store :=
  { storeOver (.table table) with
    fault := fun _ call =>
      match call with
      | .put _ | .delete _ => some readOnly
      | _ => none }

/-- The database after it was opened: one that is not read-only gets its table, and goes over to a
write-ahead log if `name.keepsLog`. -/
def openedAs (name : DatabaseName) (database : Database) : Except StoreError Database :=
  if database.logged && !name.keepsLog && !name.frozen then .error cannotOpen
  else if !name.isReadOnly then
    .ok { table := some (database.table.getD {}), logged := database.logged || name.keepsLog }
  else if database.table.isNone || !database.logged && name.keepsLog then .error readOnly
  else .ok database

namespace Action

/-- The database in the file at `place`; a missing file is made for `.create`. -/
def databaseAt (name : DatabaseName) (place : List String) :
    ExceptT StoreError (StateM Site) Database := do
  let site ← getThe Site
  match site.files.read place with
  | .ok bytes =>
    match site.databases.ofBytes? bytes with
    | some database => return database
    | none => throw noDatabase
  | .error .notFound =>
    if name.access = .create then
      set { site with files := site.files.put place (.file .empty site.now) }
      return {}
    else throw cannotOpen
  | .error cause => throw (.io cause)

/-- Opens the database in the file of `name`. -/
def openFiled (name : DatabaseName) : ExceptT StoreError (StateM Site) Opened := do
  let site ← getThe Site
  let place ← match databasePlace site.files site.workingDirectory name.path with
    | .ok place => pure place
    | .error cause => throw (.io cause)
  let found ← databaseAt name place
  let database ← match openedAs name found with
    | .ok database => pure database
    | .error e => throw e
  let table := database.table.getD {}
  if name.isReadOnly then return { store := readOnlyStore table }
  else
    modifyThe Site fun site =>
      { site with
        files := site.files.put place (.file (site.databases.toBytes database) site.now) }
    return { store := storeOver (.table table), keeping := .database place database.logged }

/-- Opens the `sqlite` store at `path`. -/
def openDatabase (path : String) : Action Opened :=
  match DatabaseName.ofText? path with
  | none => throw (.storeDatabase path cannotOpen)
  | some name =>
    if !name.isUnfiled then ExceptT.adapt (Failure.storeDatabase path) (openFiled name)
    else if name.isReadOnly then throw (.storeDatabase path readOnly)
    else return { store := storeOver (.table {}) }

/-! ## Stores -/

/-- Opens the `file` store at `path`, whose directory is made. -/
def openDirectory (path : String) : Action Opened := do
  makeDirectories (fun cause => .storeDirectory path (.io cause)) path
  let site ← site
  let place := (site.files.follow site.workingDirectory path).toOption.getD site.workingDirectory
  return {
    store := storeOver (.directory path (site.files.asDirectory place))
    keeping := .directory place }

/-- `resolved.path`, or the failure that it is not set. -/
def storePath (resolved : Resolved) : Action String :=
  match resolved.path with
  | some path => pure path
  | none => throw (.configuration (.noStorePath resolved.store))

/-- Opens the store of the configuration. -/
def openStore (resolved : Resolved) : Action Opened := do
  match resolved.store with
  | .memory => return { store := storeOver (.memory {}) }
  | .file => openDirectory (← storePath resolved)
  | .sqlite => openDatabase (← storePath resolved)

/-- Writes the backend back to where it is kept. -/
def keep (keeping : Keeping) (backend : Backend) : Action Unit := do
  let site ← site
  match keeping, backend with
  | .directory place, .directory _ directory => setFiles (site.files.putDirectory place directory)
  | .database place logged, .table table =>
    let bytes := site.databases.toBytes { table := some table, logged }
    setFiles (site.files.put place (.file bytes site.now))
  | _, _ => pure ()

/-- Runs `work` on the store, and keeps what it leaves. -/
def withStore {α : Type} (opened : Opened) (work : Store → Except Failure α × Store) :
    Action α := do
  let (result, store) := work opened.store
  keep opened.keeping store.backend
  orFail id result

/-- `withStore` of an operation on the sessions in the store. -/
def withSessions {α : Type} (opened : Opened) (failure : CacheError → Failure)
    (work : SessionStoreM α) : Action α :=
  withStore opened fun store =>
    let (result, store) := work.run.run store
    (result.mapError failure, store)

end Action

end SessionCache.Command
