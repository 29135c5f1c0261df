import SessionCache.Command.Run
import SessionCache.Decimal.Double
import SessionCache.Files.Tree
import SessionCache.Json.Printer
import SessionCache.Session.Key
import SessionCache.Text.Hex
import Std.Time.DateTime.Timestamp

/-!
# The program

Reads the files that a command line is about, runs it on them, and makes the changes. All
decisions are made in `SessionCache.Command.run`.
-/

namespace SessionCache.Command

open Json

/-- The absolute path of `place`. -/
def pathOf (place : List String) : String := "/" ++ "/".intercalate place

/-- The `DirEntry` of a path. -/
def fileAt (path : String) : IO.FS.DirEntry := { root := "", fileName := path }

/-- When a file was changed. -/
def modifiedAt (m : IO.FS.Metadata) : Instant :=
  ⟨m.modified.sec * 1000000000 + (m.modified.nsec.toNat : Int)⟩

/-- Adds the entry at `place` to the tree, if there is one. -/
def lookAt (tree : Files.Tree) (place : List String) : IO Files.Tree := do
  let file := (fileAt (pathOf place)).path
  try
    let found ← file.metadata
    match found.type with
    | .dir => return tree.put place (.directory found.byteSize.toNat (modifiedAt found))
    | _ => return tree.put place (.file (← IO.FS.readBinFile file) (modifiedAt found))
  catch _ => return tree

/-- The places that `path` leads through, and its own. -/
def placesAlong (site : Site) (path : String) : List (List String) :=
  let base := (List.range site.workingDirectory.length).map fun n =>
    site.workingDirectory.take (n + 1)
  base ++ (Path.visited site.workingDirectory path).reverse

/-- Adds the entries on the way along `path`. -/
def lookAlong (site : Site) (path : String) : IO Site := do
  return { site with files := ← (placesAlong site path).foldlM lookAt site.files }

/-- `lookAlong`, and the entries directly in `path` if it is a directory. -/
def lookInto (site : Site) (path : String) : IO Site := do
  let site ← lookAlong site path
  let place := Path.resolve site.workingDirectory path
  if site.files.isDirectory place then
    let names ← (fileAt (pathOf place)).path.readDir
    let files ← names.toList.foldlM (fun tree entry => lookAt tree (place ++ [entry.fileName]))
      site.files
    return { site with files }
  else return site

/-- Makes a change to the file system. A file is written in full before it is renamed to its
place. -/
def make : Files.Change → IO Unit
  | .makeDirectory place => IO.FS.createDirAll (pathOf place)
  | .write place bytes => do
    let unfinished := pathOf place ++ ".tmp"
    IO.FS.writeBinFile unfinished bytes
    IO.FS.rename unfinished (pathOf place)
  | .delete place => IO.FS.removeFile (pathOf place)

/-- The path of the file or directory of a store. -/
def storePathOf (resolved : Resolved) : Option String :=
  match resolved.store with
  | .memory => none
  | .file => resolved.path
  | .sqlite => (resolved.path.bind DatabaseName.ofText?).map (·.path)

/-- The paths of the store and of the log files. -/
def pathsOf (site : Site) (request : Request) : List String :=
  match ((Action.configure request.options).run.run site).1 with
  | .ok c => (storePathOf c.resolved).toList ++ c.resolved.file.toList
  | .error _ => []

/-- Adds the entries that the request reads. -/
def lookFor (site : Site) (request : Request) : IO Site := do
  let site ← (site.discovery request.options).paths.foldlM lookAlong site
  (pathsOf site request).foldlM lookInto site

/-- The choice of a call, from the standard generator with a seed made of `seed`, `worker` and
`call`. -/
def drawn (seed sessions worker call : Nat) : Choice :=
  let (session, gen) := randNat (mkStdGen (seed + worker + 1000003 * call)) 0 (sessions - 1)
  let (sku, gen) := randNat gen 0 499
  let (quantity, gen) := randNat gen 1 3
  { session, item := { sku := "sku-" ++ toString sku, quantity }, roll := (randNat gen 0 99).1 }

/-- A row as JSON. -/
def rowValue (row : Row) : Value :=
  .array [.string row.key, .string (Text.Hex.ofBytes row.payload), .string row.storedAt]

/-- Inverse of `rowValue`. -/
def rowOf? : Value → Option Row
  | .array [.string key, .string payload, .string storedAt] =>
    (Text.Hex.toBytes? payload).map fun payload => { key, payload, storedAt }
  | _ => none

/-- The database of a JSON array: `logged` and the rows. -/
def databaseOf? : Value → Option Database
  | .array [.bool logged, .array rows] => do
    let rows ← rows.mapM rowOf?
    return { table := some ⟨rows⟩, logged }
  | _ => none

/-- The first bytes of a database file. The last one is not UTF-8. -/
def databaseMark : ByteArray := "session table 1".toUTF8.push 0xFF

/-- Database files as `databaseMark` followed by JSON. -/
def databases : Database.Format where
  toBytes d :=
    match d.table with
    | none => .empty
    | some t =>
      databaseMark ++ (Value.array [.bool d.logged, .array (t.rows.map rowValue)]).compact.toUTF8
  ofBytes? bytes :=
    if bytes.isEmpty then some {}
    else if bytes.extract 0 databaseMark.size = databaseMark then do
      let text ← String.fromUTF8? (bytes.extract databaseMark.size bytes.size)
      databaseOf? (← Value.ofText? text)
    else none

/-- The site before any file was looked at. -/
def siteNow : IO Site := do
  let base ← IO.currentDir
  let now ← Std.Time.Timestamp.now
  let entropy ← IO.rand 0 (twoTo 128 - 1)
  return {
    files := {}
    workingDirectory := Path.resolve [] base.toString
    now := ⟨now.toNanosecondsSinceUnixEpoch.toInt⟩
    user := {
      configDir := ← IO.getEnv "DORMANT_CONFIG_DIR"
      sharedDir := ← IO.getEnv "XDG_CONFIG_HOME"
      home := ← IO.getEnv "HOME" }
    seed := ← IO.rand 0 (twoTo 64 - 1)
    choices := drawn
    keys := Key.ofEntropy entropy
    databases }

/-- Prints the output of the outcome. -/
def report (outcome : Outcome) (elapsed : Duration) : IO Unit := do
  IO.print (outcome.render elapsed)
  match outcome with
  | .failed failure =>
    IO.eprintln ("Error: " ++ failure.message)
    match failure.cause? with
    | some cause => IO.eprintln ("\nCaused by:\n    " ++ cause)
    | none => pure ()
  | .refused => IO.eprint ("error: unknown arguments\n\n" ++ usage .root ++ "\n")
  | _ => pure ()

end SessionCache.Command

open SessionCache.Command in
/-- The program: parses the command line, looks at the files, runs the command and makes its
changes. -/
def main (words : List String) : IO UInt32 := do
  let environment ← IO.getEnv "DORMANT_CONFIG"
  let start ← IO.monoNanosNow
  let site ← siteNow
  let site ← match Request.ofWords environment words with
    | .ok request => lookFor site request
    | .error _ => pure site
  let (outcome, after) := run environment words site
  (site.files.changes after.files).forM make
  let stop ← IO.monoNanosNow
  report outcome ⟨stop - start⟩
  return UInt32.ofNat outcome.code
