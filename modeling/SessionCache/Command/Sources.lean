import SessionCache.Command.Output
import SessionCache.Command.Site
import SessionCache.Config.Json

/-!
# Commands about the configuration

* `showConfig` shows the configuration that is in force, and the files that it comes from.
* `showSources` shows the files that were looked at.
-/

namespace SessionCache.Command

open Json

/-- The paths whose files became layers. -/
def usedPaths (loaded : Loaded) : List String :=
  (loaded.sources.filter (·.loaded)).map (·.path)

/-- The output of `config show --json`. -/
def configValue (c : Configured) : Value :=
  .object [("sources", .array ((usedPaths c.loaded).map .string)),
    ("warnings", .array (c.loaded.warnings.map .string)),
    ("config", c.resolved.toLayer.toValue)]

/-- The lines about the sources and the warnings. -/
def originLines (loaded : Loaded) : List String :=
  let used := usedPaths loaded
  (if used.isEmpty then ["# No config files loaded, showing defaults"]
    else used.map ("# Loaded from " ++ ·)) ++
    loaded.warnings.map ("# Warning: " ++ ·)

/-- `config show`. -/
def showConfig (json : Bool) (c : Configured) : Output :=
  .text (if json then document (configValue c)
    else unlines (originLines c.loaded ++ [""]) ++ c.resolved.toLayer.toToml)

/-- A source as JSON. -/
def sourceValue (source : ConfigSource) : Value :=
  .object [("path", .string source.path), ("loaded", .bool source.loaded)]

/-- A source in one line. -/
def sourceLine (source : ConfigSource) : String :=
  "  " ++ (if source.loaded then "✓" else "·") ++ " " ++ source.path

/-- `config sources`. -/
def showSources (json : Bool) (loaded : Loaded) : Output :=
  .text (if json then document (.array (loaded.sources.map sourceValue))
    else unlines (["Config Sources", Summary.rule 50, ""] ++ loaded.sources.map sourceLine ++
      ["", "  Later files override earlier ones; CLI flags override all files."]))

end SessionCache.Command
