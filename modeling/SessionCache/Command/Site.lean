import SessionCache.Command.Output
import SessionCache.Command.Request
import SessionCache.Config.Discovery
import SessionCache.Config.Resolved
import SessionCache.Files.Walk
import SessionCache.Logging.Filter
import SessionCache.Simulation.Workload
import SessionCache.Store.Table

/-!
# Where a command runs

A command sees files, the time and some variables; it may fail, and what it did to the files
before stays done.

* `Action.configure` finds the configuration and puts the command line on top.
* `Action.openLog` makes ready for the log.
-/

namespace SessionCache.Command

/-- What the program finds: files, working directory, clock, environment. -/
structure Site where
  files : Files.Tree
  workingDirectory : List String
  now : Instant
  /-- The variables of the user's file. -/
  user : UserPlace
  /-- The seed of a simulation without `--seed`. -/
  seed : Nat
  /-- The choices of a simulation as the generator of random numbers draws them: `choices seed
  sessions worker call`. -/
  choices : Nat → Nat → Nat → Nat → Choice
  /-- The fresh keys, in order. -/
  keys : Nat → Key
  /-- The format of database files. -/
  databases : Database.Format

/-- A command: it changes the site, and may fail. -/
abbrev Action := ExceptT Failure (StateM Site)

/-- A configuration, with the files and flags that it comes from. -/
structure Configured where
  loaded : Loaded
  /-- The layer of files and flags. -/
  layer : Layer
  resolved : Resolved

namespace Site

/-- The files of the site. -/
def view (site : Site) : FileView where
  status := site.files.statusAt site.workingDirectory
  read := site.files.readAt site.workingDirectory

/-- The search for configuration files. -/
def discovery (site : Site) (options : Options) : Discovery where
  user := site.user.path?
  project := Discovery.projectFile
  explicit := options.config

end Site

namespace Action

/-- The site as it is now. -/
def site : Action Site := getThe Site

/-- A failure of an `Except` as a `Failure`. -/
def orFail {ε α : Type} (failure : ε → Failure) : Except ε α → Action α
  | .ok a => pure a
  | .error e => throw (failure e)

/-- Replaces the files. -/
def setFiles (files : Files.Tree) : Action Unit := modifyThe Site fun site => { site with files }

/-- `mkdir -p`; the directories that were made stay if a later one fails. -/
def makeDirectories (failure : IoCause → Failure) (path : String) : Action Unit := do
  let site ← site
  let (result, files) := site.files.makeDirectories site.now site.workingDirectory path
  setFiles files
  orFail failure result

/-- Loads the files, merges the global flags on top, and resolves. -/
def configure (options : Options) : Action Configured := do
  let site ← site
  let loaded ← orFail .loading ((site.discovery options).load site.view)
  let layer := loaded.layer.merge options.overrides
  let resolved ← orFail .configuration layer.resolve
  return { loaded, layer, resolved }

/-- The level of `--verbose`. -/
def verboseLevel : String := "debug"

/-- Checks the log level, and makes the directory of the log files. -/
def openLog (options : Options) (resolved : Resolved) : Action Unit := do
  let level := if options.verbose then verboseLevel else resolved.level
  if !Filter.isValid (Filter.ofLevel level) then throw (.logLevel level)
  match resolved.file with
  | none => pure ()
  | some path => makeDirectories (.logDirectory path) path

end Action

end SessionCache.Command
