import SessionCache.Command.Records
import SessionCache.Proofs.Exec

/-!
# What the commands about records do

Each of them opens the store of a configuration, does one operation on its sessions, puts back what
became of the store, and tells of it (`Command.conclude`).

* `Command.exec_listRecords`, `Command.exec_removeRecord`, `Command.exec_purgeRecords`: one statement
  for each, in terms of the operation on the store that was opened.
* `Command.exec_databaseAt_keep`: the table of one command is that of the next one.
-/

namespace SessionCache.Command

/-- The end of a command that ran an operation on `opened`: `done` is its answer and the store it
left, which is kept also if it failed. -/
def conclude {α : Type} (opened : Opened) (failure : CacheError → Failure) (tell : α → String)
    (done : Except CacheError α × Store) : Action Output := do
  Action.keep opened.keeping done.2.backend
  let a ← Action.orFail failure done.1
  return .text (tell a)

theorem withSessions_bind {α : Type} (opened : Opened) (failure : CacheError → Failure)
    (tell : α → String) (work : SessionStoreM α) :
    (do return .text (tell (← Action.withSessions opened failure work)) : Action Output) =
      conclude opened failure tell (exec work opened.store) := by
  have hsessions : Action.withSessions opened failure work = (do
      Action.keep opened.keeping (exec work opened.store).2.backend
      Action.orFail failure (exec work opened.store).1) := by
    change (do
      Action.keep opened.keeping (exec work opened.store).2.backend
      Action.orFail id ((exec work opened.store).1.mapError failure)) = _
    cases (exec work opened.store).1 <;> rfl
  rw [hsessions, bind_assoc]
  rfl

variable {json : Bool} {resolved : Resolved} {site site' : Site} {opened : Opened}

theorem exec_listRecords (hopen : exec (Action.openStore resolved) site = (.ok opened, site')) :
    exec (listRecords json resolved) site =
      exec (conclude opened .listing (fun metas => listing json resolved.store (byAge metas))
        (exec Store.records opened.store)) site' := by
  rw [listRecords, exec_bind_ok hopen, ← withSessions_bind]

/-- `removeRecord` opens the store before it looks at `text`. -/
theorem exec_removeRecord (hopen : exec (Action.openStore resolved) site = (.ok opened, site'))
    (text : String) :
    exec (removeRecord json resolved text) site = match Key.ofText? text with
      | none => (.error (.sessionKey text), site')
      | some key =>
        exec (conclude opened .removal (removalReport json key)
          (exec (Store.remove key) opened.store)) site' := by
  rw [removeRecord, exec_bind_ok hopen]
  cases Key.ofText? text with
  | none => rfl
  | some key =>
    dsimp only
    rw [withSessions_bind]

theorem exec_purgeRecords (hopen : exec (Action.openStore resolved) site = (.ok opened, site'))
    (seconds : Nat) :
    exec (purgeRecords json resolved seconds) site = match cutoff? site'.now seconds with
      | none => (.error (.age seconds), site')
      | some cutoff =>
        exec (conclude opened .purge (purgeReport json cutoff)
          (exec (Store.purgeOlderThan cutoff) opened.store)) site' := by
  have hsite : exec Action.site site' = (.ok site', site') := rfl
  rw [purgeRecords, exec_bind_ok hopen, exec_bind_ok hsite]
  cases cutoff? site'.now seconds with
  | none => rfl
  | some cutoff =>
    dsimp only
    rw [withSessions_bind]

/-! ## Databases -/

/-- A table that was kept in a database file is found there when it is opened again, whatever
`site.databases` makes of the bytes. -/
theorem exec_databaseAt_keep (h : site.databases.Lawful) {place : List String}
    (hplace : site.files.obstacle? [] place = none) (name : DatabaseName) (table : Table)
    (logged : Bool) :
    (exec (Action.databaseAt name place)
      (exec (Action.keep (.database place logged) (.table table)) site).2).1 =
        .ok { table := some table, logged } := by
  let database : Database := { table := some table, logged }
  let files := site.files.put place (.file (site.databases.toBytes database) site.now)
  have hkeep : (exec (Action.keep (.database place logged) (.table table)) site).2 =
      { site with files } := rfl
  have hread : files.read place = .ok (site.databases.toBytes database) :=
    site.files.read_put _ _ hplace
  have hsite : exec (getThe Site : ExceptT StoreError (StateM Site) Site) { site with files } =
      (.ok { site with files }, { site with files }) := rfl
  rw [hkeep, Action.databaseAt, exec_bind_ok hsite, hread]
  dsimp only
  rw [h.ofBytes?_toBytes]
  rfl

end SessionCache.Command
