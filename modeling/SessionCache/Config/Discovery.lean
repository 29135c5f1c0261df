import SessionCache.Config.Document
import SessionCache.Config.Error
import SessionCache.Files.Path

/-!
# Finding configuration

Up to three files are looked at: that of the user, that of the project, and one that is named
explicitly, each on top of the ones before. For the first two, `FileView.isFile` says whether there is
a file to read, which is also false of a directory and of a file whose status the system does not
tell. A file that is there but cannot be used is passed over with a warning; the one that is named
explicitly has to be usable.

* `FileView`: the status of every path, and what reading it gives.
* `Discovery.load` puts the layers together.
-/

namespace SessionCache

/-- What the search for configuration files can ask of the file system. -/
structure FileView where
  status : String → Path.Status
  /-- The content of a file. -/
  read : String → Except IoCause ByteArray

/-- `status` is `.regular`. -/
def FileView.isFile (files : FileView) (path : String) : Bool := files.status path = .regular

/-- The environment variables that the path of the user's file comes from. -/
structure UserPlace where
  /-- The directory of this program, `$DORMANT_CONFIG_DIR`. -/
  configDir : Option String := none
  /-- The directory of all programs, `$XDG_CONFIG_HOME`. -/
  sharedDir : Option String := none
  home : Option String := none
  /-- The home directory that the system knows of, where `$HOME` is not set. -/
  fallbackHome : Option String := none

namespace UserPlace

/-- A variable that is empty counts as one that is not set. -/
def nonempty (setting : Option String) : Option String := setting.filter (!·.isEmpty)

/-- The home directory. -/
def homeDir? (place : UserPlace) : Option String := nonempty place.home <|> place.fallbackHome

/-- `sharedDir`, if it is absolute, or `.config` in the home directory. -/
def baseDir? (place : UserPlace) : Option String :=
  place.sharedDir.filter Path.isAbsolute <|> place.homeDir?.map (Path.join · ".config")

/-- The name of the program's own directory. -/
def programName : String := "dormant"

/-- The directory for the configuration of this program. -/
def dir? (place : UserPlace) : Option String :=
  nonempty place.configDir <|> place.baseDir?.map (Path.join · programName)

/-- The name of the file in that directory. -/
def fileName : String := "config.toml"

/-- The path of `config.toml` of the user. -/
def path? (place : UserPlace) : Option String := place.dir?.map (Path.join · fileName)

end UserPlace

/-- A path that was looked at, and whether its file became a layer. -/
structure ConfigSource where
  path : String
  loaded : Bool
  deriving DecidableEq, Repr

/-- The outcome of the search. -/
structure Loaded where
  layer : Layer := {}
  /-- The paths, lowest layer first. -/
  sources : List ConfigSource := []
  warnings : List String := []

/-- The paths of the search. -/
structure Discovery where
  /-- `UserPlace.path?`. -/
  user : Option String
  project : String
  /-- The value of `--config`. -/
  explicit : Option String := none

namespace Discovery

/-- The name of the project's file. -/
def projectFile : String := "dormant.toml"

/-- Reads and parses the file at `path`. -/
def loadFile (files : FileView) (path : String) : Except ConfigError Layer := do
  match files.read path with
  | .error cause => throw (.unreadable path cause)
  | .ok bytes =>
    match String.fromUTF8? bytes with
    | none => throw (.unreadable path (.other "stream did not contain valid UTF-8"))
    | some text =>
      match Layer.ofToml? text with
      | none => throw .malformed
      | some layer => return layer

/-- The text of the warning about a file that was found and fails to load. -/
def warning (path : String) (e : ConfigError) : String :=
  "Failed to load " ++ path ++ ": " ++ e.message

/-- Puts the file at `path` on top of `loaded`. A file that is not `isFile` is passed over; one that
fails to load adds a warning. -/
def addFound (files : FileView) (loaded : Loaded) (path : String) : Loaded :=
  if files.isFile path then
    match loadFile files path with
    | .ok layer =>
      { loaded with
        layer := loaded.layer.merge layer
        sources := loaded.sources ++ [⟨path, true⟩] }
    | .error e =>
      { loaded with
        sources := loaded.sources ++ [⟨path, false⟩]
        warnings := loaded.warnings ++ [warning path e] }
  else { loaded with sources := loaded.sources ++ [⟨path, false⟩] }

/-- Loads the files of user and project, where there are such, and then the explicit file, which
must load. -/
def load (d : Discovery) (files : FileView) : Except ConfigError Loaded := do
  let loaded := (d.user.toList ++ [d.project]).foldl (addFound files) {}
  match d.explicit with
  | none => return loaded
  | some path =>
    let layer ← loadFile files path
    return { loaded with
      layer := loaded.layer.merge layer
      sources := loaded.sources ++ [⟨path, true⟩] }

/-- The paths in the order of the search, lowest layer first. -/
def paths (d : Discovery) : List String := d.user.toList ++ [d.project] ++ d.explicit.toList

end Discovery

end SessionCache
