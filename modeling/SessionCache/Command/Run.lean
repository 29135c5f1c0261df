import SessionCache.Command.Records
import SessionCache.Command.Sources
import SessionCache.Simulation.Workload

/-!
# Running commands

* `perform` does what a request asks for.
* `run` reads a command line and does what it asks for.
-/

namespace SessionCache.Command

/-- The configuration of a simulation: `plan.overrides` on top of `layer`. -/
def simulationConfig (layer : Layer) (plan : Plan) : Except ConfigError Resolved :=
  (layer.merge plan.overrides).resolve

/-- `Workload.run` on `store`: the summary, and the store it leaves. -/
def simulateOn (site : Site) (kind : StoreKind) (settings : Settings) (plan : Plan)
    (store : Store) : Except Failure Summary × Store :=
  let seed := plan.seed.getD site.seed
  let world : World Basket Nat := { cache := {}, store, now := site.now, outside := 0 }
  let work := Workload.run (Workload.surroundings settings site.keys) plan
    (site.choices seed plan.sessions)
  let (result, world) := work.run.run world
  (match result with
    | .ok tally => .ok { seed, store := kind, tally, stats := .ofCache settings world.cache }
    | .error cause => .error (.sessions cause),
    world.store)

/-- `simulate`. -/
def simulate (options : Options) (c : Configured) (plan : Plan) : Action Output := do
  let resolved ← Action.orFail .cacheSettings (simulationConfig c.layer plan)
  let site ← Action.site
  let opened ← Action.openStore c.resolved
  let summary ← Action.withStore opened
    (simulateOn site c.resolved.store resolved.settings plan)
  return .summary summary options.json options.verbose

/-- Runs the command of `request`. -/
def perform (request : Request) : Action Output := do
  let options := request.options
  let configured ← Action.configure options
  Action.openLog options configured.resolved
  match request.task with
  | .simulate plan => simulate options configured plan
  | .listRecords => listRecords options.json configured.resolved
  | .removeRecord key => removeRecord options.json configured.resolved key
  | .purgeRecords age => purgeRecords options.json configured.resolved age
  | .showConfig => return showConfig options.json configured
  | .showSources => return showSources options.json configured.loaded

/-- How the program ended. -/
inductive Outcome where
  | printed (output : Output)
  | help (branch : Branch)
  | version (branch : Branch)
  | failed (failure : Failure)
  /-- The command line failed to parse. -/
  | refused

/-- The version of the program. -/
def programVersion : String := "0.0.0"

/-- The exit code. -/
def Outcome.code : Outcome → Nat
  | .printed _ | .help _ | .version _ => 0
  | .failed _ => 1
  | .refused => 2

/-- The usage line of a command. -/
def usage (branch : Branch) : String :=
  let words := branch.children.map (·.1)
  "Usage: " ++ branch.title.replace "-" " " ++ " [OPTIONS]" ++
    (if words.isEmpty then "" else " <" ++ "|".intercalate words ++ ">") ++
    (if branch.takesKey then " <KEY>" else "")

/-- The output at the end; `elapsed` is the time of the simulation. -/
def Outcome.render (elapsed : Duration) : Outcome → String
  | .printed output => output.render elapsed
  | .help branch =>
    unlines (usage branch :: "" :: "Options:" ::
      branch.switches.map fun switch => "  --" ++ switch.name)
  | .version branch => unlines [branch.title ++ " " ++ programVersion]
  | .failed _ | .refused => ""

/-- Parses the command line and runs it. -/
def run (environment : Option String) (words : List String) (site : Site) : Outcome × Site :=
  match Request.ofWords environment words with
  | .error .refused => (.refused, site)
  | .error (.help branch) => (.help branch, site)
  | .error (.version branch) => (.version branch, site)
  | .ok request =>
    match (perform request).run.run site with
    | (.ok output, site) => (.printed output, site)
    | (.error failure, site) => (.failed failure, site)

end SessionCache.Command
