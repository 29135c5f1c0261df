import SessionCache.Command.Words

/-!
# Requests

A request is a command and what is set for it. Of two values for the same thing, the one that
stands with the inner command counts.

* `Request.ofWords` reads a request from a command line.
-/

namespace SessionCache.Command

/-- The commands. -/
inductive Task where
  | simulate (plan : Plan)
  | listRecords
  /-- The text of the key is not parsed yet. -/
  | removeRecord (key : String)
  /-- The age is in seconds. -/
  | purgeRecords (age : Nat)
  | showConfig
  | showSources
  deriving DecidableEq, Repr

/-- The values of all flags. -/
structure Options where
  verbose : Bool := false
  json : Bool := false
  /-- The path after `--config`. -/
  config : Option String := none
  store : Option StoreKind := none
  storePath : Option String := none
  plan : Plan := {}
  age : Option Nat := none
  deriving DecidableEq, Repr

/-- A command line that was parsed. -/
structure Request where
  options : Options
  task : Task
  deriving DecidableEq, Repr

namespace Options

/-- The options with one flag more. -/
def apply (o : Options) : Setting → Options
  | .verbose => { o with verbose := true }
  | .json => { o with json := true }
  | .config path => { o with config := some path }
  | .store kind => { o with store := some kind }
  | .storePath path => { o with storePath := some path }
  | .sessions n => { o with plan := { o.plan with sessions := n } }
  | .workers n => { o with plan := { o.plan with workers := n } }
  | .calls n => { o with plan := { o.plan with calls := n } }
  | .removePercent n => { o with plan := { o.plan with removePercent := n } }
  | .seed n => { o with plan := { o.plan with seed := some n } }
  | .maxSize n => { o with plan := { o.plan with maxSize := some n } }
  | .idleTimeout ms => { o with plan := { o.plan with idleTimeout := some ms } }
  | .blockTimeout ms => { o with plan := { o.plan with blockTimeout := some ms } }
  | .drain => { o with plan := { o.plan with drain := true } }
  | .olderThan seconds => { o with age := some seconds }

/-- The layer of the global flags. -/
def overrides (o : Options) : Layer where
  store :=
    if o.store.isSome || o.storePath.isSome then some { backend := o.store, path := o.storePath }
    else none

end Options

namespace Request

/-- The command of the innermost frame; `none` if it needs a subcommand, a key or an age that is not
there. -/
def taskOf? (f : Frame) (o : Options) : Option Task :=
  match f.branch with
  | .simulate => some (.simulate o.plan)
  | .listRecords => some .listRecords
  | .removeRecord => f.key.map .removeRecord
  | .purgeRecords => o.age.map .purgeRecords
  | .showConfig => some .showConfig
  | .showSources => some .showSources
  | .root | .store | .config => none

/-- The environment variable of `--config` is empty, and some frame has no `--config`. -/
def namesNoFile (environment : Option String) (frames : List Frame) : Bool :=
  environment = some "" && frames.any fun f => !f.settings.any (·.1 = .config)

/-- Parses a command line. `environment` is the value of `--config` for the frames that have
none. -/
def ofWords (environment : Option String) (words : List String) : Except Stop Request := do
  let frames ← readWords { branch := .root } words
  if namesNoFile environment frames then throw .refused
  let settings := frames.flatMap fun f => f.settings.map (·.2)
  let options := settings.foldl Options.apply { config := environment }
  match frames.getLast?.bind (taskOf? · options) with
  | some task => return { options, task }
  | none => throw .refused

end Request

end SessionCache.Command
