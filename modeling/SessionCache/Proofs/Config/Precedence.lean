import Mathlib.Data.List.Induction
import SessionCache.Command.Request
import SessionCache.Config.Discovery

/-!
# Which layer counts

Of the layers that a configuration is put together from, the last one that sets a setting decides
it, for each of the ten settings by itself.

* `Setting`, `Layer.value?`: the ten settings, and what a layer sets them to.
* `Layer.value?_merge`, `Layer.value?_stack`: two layers on top of each other, and any number.
* `Discovery.precedence`: the same for the files that are found and the switches of the command
  line, with what is told of each file.
-/

namespace SessionCache

/-! ## Settings -/

/-- The ten settings of a `Layer`. -/
inductive Setting where
  | maxSize
  | idleTimeout
  | blockOnFull
  | blockTimeout
  | sweepInterval
  | removalTimeout
  | backend
  | path
  | level
  | file

/-- The type of the values of a setting. -/
abbrev Setting.Value : Setting → Type
  | .maxSize | .idleTimeout | .blockTimeout | .sweepInterval | .removalTimeout => Nat
  | .blockOnFull => Bool
  | .backend => StoreKind
  | .path | .level | .file => String

namespace Layer

/-- The value of `s` in `layer`, if it sets one. -/
def value? (layer : Layer) : (s : Setting) → Option s.Value
  | .maxSize => layer.cache.bind (·.maxSize)
  | .idleTimeout => layer.cache.bind (·.idleTimeout)
  | .blockOnFull => layer.cache.bind (·.blockOnFull)
  | .blockTimeout => layer.cache.bind (·.blockTimeout)
  | .sweepInterval => layer.cache.bind (·.sweepInterval)
  | .removalTimeout => layer.cache.bind (·.removalTimeout)
  | .backend => layer.store.bind (·.backend)
  | .path => layer.store.bind (·.path)
  | .level => layer.logging.bind (·.level)
  | .file => layer.logging.bind (·.file)

/-- The value of `s` in the last of `layers` that sets it. -/
def lastValue? (layers : List Layer) (s : Setting) : Option s.Value :=
  layers.reverse.findSome? (·.value? s)

/-- `Layer.merge` of `layers`, the last one on top. -/
def stack (layers : List Layer) : Layer := layers.foldl merge {}

end Layer

/-- A field of `mergeSections` is that of the upper section, or else of the lower one. -/
theorem bind_mergeSections {α β : Type} {merge : α → α → α} {field : α → Option β}
    (h : ∀ lower upper, field (merge lower upper) = topmost (field lower) (field upper))
    (lower upper : Option α) :
    (mergeSections merge lower upper).bind field =
      (upper.bind field).or (lower.bind field) := by
  cases lower <;> cases upper <;> simp [mergeSections, h, topmost]

namespace Layer

/-- `value?` of `lower.merge upper` is that of `upper`, or else that of `lower`. -/
@[simp] theorem value?_merge (lower upper : Layer) (s : Setting) :
    (lower.merge upper).value? s = (upper.value? s).or (lower.value? s) := by
  cases s <;> exact bind_mergeSections (fun _ _ => rfl) _ _

@[simp] theorem value?_empty (s : Setting) : value? {} s = none := by
  cases s <;> rfl

/-- `merge` is idempotent. -/
@[simp] theorem merge_self (layer : Layer) : layer.merge layer = layer := by
  have hsame : ∀ {α : Type} (a : Option α), topmost a a = a := fun a => by cases a <;> rfl
  have hsection : ∀ {α : Type} (merge : α → α → α) (a : Option α), (∀ a, merge a a = a) →
      mergeSections merge a a = a := by
    intro α merge a h
    cases a <;> simp [mergeSections, h]
  rw [merge, hsection _ _ fun a => by simp only [CacheLayer.merge, hsame],
    hsection _ _ fun a => by simp only [StoreLayer.merge, hsame],
    hsection _ _ fun a => by simp only [LoggingLayer.merge, hsame]]

theorem stack_append_singleton (layers : List Layer) (upper : Layer) :
    stack (layers ++ [upper]) = (stack layers).merge upper := by
  rw [stack, List.foldl_append]
  rfl

/-- `stack` of appended lists. -/
theorem stack_append (lower upper : List Layer) :
    stack (lower ++ upper) = (stack lower).merge (stack upper) := by
  induction upper using List.reverseRecOn with
  | nil => rw [List.append_nil, stack, stack, List.foldl_nil, merge_empty]
  | append_singleton rest layer ih =>
    rw [← List.append_assoc, stack_append_singleton, ih, stack_append_singleton, merge_assoc]

/-- `stack` sets each setting to its `lastValue?`. -/
theorem value?_stack (layers : List Layer) (s : Setting) :
    (stack layers).value? s = lastValue? layers s := by
  induction layers using List.reverseRecOn with
  | nil => exact value?_empty s
  | append_singleton rest layer ih =>
    rw [stack_append_singleton, value?_merge, ih, lastValue?, lastValue?, List.reverse_append]
    simp only [List.reverse_singleton, List.singleton_append, List.findSome?_cons]
    cases layer.value? s <;> rfl

end Layer

/-! ## Files -/

namespace Discovery

/-- What is at a path that the search looks at. -/
inductive Finding where
  | missing
  /-- Something for which `isFile` is `false`: no regular file, or one whose status is `.hidden`. -/
  | passedOver
  | unusable (e : ConfigError)
  | usable (layer : Layer)
  deriving DecidableEq

/-- The `Finding` at `path`. -/
def look (files : FileView) (path : String) : Finding :=
  match files.status path with
  | .missing => .missing
  | .hidden | .irregular => .passedOver
  | .regular =>
    match loadFile files path with
    | .ok layer => .usable layer
    | .error e => .unusable e

namespace Finding

/-- The layer that a finding contributes. -/
def layer? : Finding → Option Layer
  | .usable layer => some layer
  | .missing | .passedOver | .unusable _ => none

/-- The entry for `path` in `sources`. -/
def source (path : String) (finding : Finding) : ConfigSource := ⟨path, finding.layer?.isSome⟩

/-- The warnings of a finding at `path`. -/
def warnings (path : String) : Finding → List String
  | .unusable e => [warning path e]
  | .missing | .passedOver | .usable _ => []

end Finding

/-- The paths of the user and the project, in this order. -/
def foundPaths (d : Discovery) : List String := d.user.toList ++ [d.project]

/-- The layers at the `foundPaths`. -/
def foundLayers (d : Discovery) (files : FileView) : List Layer :=
  d.foundPaths.filterMap fun path => (look files path).layer?

theorem addFound_eq (files : FileView) (loaded : Loaded) (path : String) :
    addFound files loaded path =
      { layer := loaded.layer.merge ((look files path).layer?.getD {})
        sources := loaded.sources ++ [(look files path).source path]
        warnings := loaded.warnings ++ (look files path).warnings path } := by
  unfold addFound look FileView.isFile
  cases files.status path with
  | missing | hidden | irregular =>
    simp [Finding.layer?, Finding.source, Finding.warnings]
  | regular =>
    cases loadFile files path <;>
      simp [Finding.layer?, Finding.source, Finding.warnings]

/-- `addFound` at every path: the `stack` of the layers, every `source` and all `warnings`. -/
theorem foldl_addFound (files : FileView) (paths : List String) :
    paths.foldl (addFound files) {} =
      { layer := .stack (paths.filterMap fun path => (look files path).layer?)
        sources := paths.map fun path => (look files path).source path
        warnings := paths.flatMap fun path => (look files path).warnings path } := by
  induction paths using List.reverseRecOn with
  | nil => rfl
  | append_singleton rest path ih =>
    have hlayer : Layer.stack ((rest ++ [path]).filterMap fun path => (look files path).layer?) =
        (Layer.stack (rest.filterMap fun path => (look files path).layer?)).merge
          ((look files path).layer?.getD {}) := by
      rw [List.filterMap_append, Layer.stack_append]
      cases h : (look files path).layer? with
      | none => simp [h, Layer.stack]
      | some layer => simp [h, Layer.stack, Layer.empty_merge]
    rw [List.foldl_append, ih, List.foldl_cons, List.foldl_nil, addFound_eq, hlayer]
    simp

/-- If the explicit file fails to load, that is the answer of `Discovery.load`. -/
theorem load_error {d : Discovery} {files : FileView} {path : String} {e : ConfigError}
    (hpath : d.explicit = some path) (h : loadFile files path = .error e) :
    d.load files = .error e := by
  simp only [load, hpath, h, bind, Except.bind]

/-- The layers of `Discovery.load`: user, project, explicit file. -/
def layers (d : Discovery) (files : FileView) : List Layer :=
  d.foundLayers files ++ d.explicit.toList.filterMap fun path => (loadFile files path).toOption

/-- If the explicit file loads, or there is none, `Discovery.load` is the `stack` of `layers`. -/
theorem load_ok {d : Discovery} {files : FileView}
    (h : ∀ path, d.explicit = some path → ∃ layer, loadFile files path = .ok layer) :
    d.load files = .ok
      { layer := .stack (d.layers files)
        sources := (d.foundPaths.map fun path => (look files path).source path) ++
          d.explicit.toList.map fun path => ⟨path, true⟩
        warnings := d.foundPaths.flatMap fun path => (look files path).warnings path } := by
  rw [load, foldl_addFound]
  cases hexplicit : d.explicit with
  | none => simp [layers, hexplicit, foundLayers, foundPaths, pure, Except.pure]
  | some path =>
    obtain ⟨layer, hlayer⟩ := h path hexplicit
    simp only [hlayer, layers, hexplicit, foundLayers, foundPaths, Layer.stack_append, bind,
      Except.bind]
    simp [Layer.stack, Layer.empty_merge, hlayer, Except.toOption, pure, Except.pure]

/-- `Discovery.load` fails exactly with the explicit file. Else every setting is the `lastValue?` of
user file, project file, explicit file and command line. A found regular file that fails to read or
to parse sets nothing and adds exactly one warning; a path at which `isFile` is `false`, also of a
file that exists, sets nothing and adds none. -/
theorem precedence (d : Discovery) (files : FileView) (options : Command.Options) :
    (∀ path e, d.explicit = some path → loadFile files path = .error e →
      d.load files = .error e) ∧
    ((∀ path, d.explicit = some path → ∃ layer, loadFile files path = .ok layer) →
      ∃ loaded, d.load files = .ok loaded ∧
        (∀ s, (loaded.layer.merge options.overrides).value? s =
          Layer.lastValue? (d.layers files ++ [options.overrides]) s) ∧
        loaded.sources = (d.foundPaths.map fun path => (look files path).source path) ++
          d.explicit.toList.map (fun path => ⟨path, true⟩) ∧
        loaded.warnings = d.foundPaths.flatMap fun path => (look files path).warnings path) ∧
    (∀ a b c : Layer, (a.merge b).merge c = a.merge (b.merge c)) ∧
    ∀ a : Layer, a.merge {} = a ∧ Layer.merge {} a = a ∧ a.merge a = a := by
  refine ⟨fun path e hpath he => load_error hpath he, fun h => ⟨_, load_ok h, fun s => ?_, rfl, rfl⟩,
    Layer.merge_assoc, fun a => ⟨a.merge_empty, a.empty_merge, a.merge_self⟩⟩
  rw [← Layer.stack_append_singleton, Layer.value?_stack]

/-- Three files, of which that of the project does not parse. -/
def threeFiles : FileView where
  status
    | "user" | "project" => .regular
    | _ => .missing
  read
    | "user" => .ok "[cache]\nmax_size = 3\n[store]\npath = 'a'\n".toUTF8
    | "project" => .ok "[cache".toUTF8
    | "explicit" => .ok "[store]\nbackend = 'file'\npath = 'b'\n".toUTF8
    | _ => .error .notFound

/-- Two files and the command line each set something. -/
theorem precedence_of_three :
    ∃ loaded, load { user := some "user", project := "project", explicit := some "explicit" }
        threeFiles = .ok loaded ∧
      (loaded.layer.merge { storePath := some "c" : Command.Options }.overrides).value? .maxSize =
        some (3 : Nat) ∧
      (loaded.layer.merge { storePath := some "c" : Command.Options }.overrides).value? .backend =
        some StoreKind.file ∧
      (loaded.layer.merge { storePath := some "c" : Command.Options }.overrides).value? .path =
        some "c" ∧
      loaded.sources = [⟨"user", true⟩, ⟨"project", false⟩, ⟨"explicit", true⟩] ∧
      loaded.warnings = ["Failed to load project: failed to parse config"] := by
  have hexplicit : loadFile threeFiles "explicit" =
      .ok { store := some { backend := some .file, path := some "b" } } := by decide +kernel
  obtain ⟨loaded, hload, hvalue, hsources, hwarnings⟩ := (precedence
    { user := some "user", project := "project", explicit := some "explicit" } threeFiles
    { storePath := some "c" }).2.1 fun _ hpath => ⟨_, Option.some.inj hpath ▸ hexplicit⟩
  have hlayers : layers { user := some "user", project := "project", explicit := some "explicit" }
      threeFiles = [{ cache := some { maxSize := some 3 }, store := some { path := some "a" } },
        { store := some { backend := some .file, path := some "b" } }] := by decide +kernel
  have huser : look threeFiles "user" =
      .usable { cache := some { maxSize := some 3 }, store := some { path := some "a" } } := by
    decide +kernel
  have hproject : look threeFiles "project" = .unusable .malformed := by decide +kernel
  have hpaths : foundPaths
      { user := some "user", project := "project", explicit := some "explicit" } =
        ["user", "project"] := rfl
  refine ⟨loaded, hload, ?_, ?_, ?_, ?_, ?_⟩
  · rw [hvalue, hlayers]
    rfl
  · rw [hvalue, hlayers]
    rfl
  · rw [hvalue, hlayers]
    rfl
  · rw [hsources, hpaths]
    simp only [List.map_cons, List.map_nil, huser, hproject]
    rfl
  · rw [hwarnings, hpaths]
    simp only [List.flatMap_cons, List.flatMap_nil, huser, hproject]
    decide +kernel

/-- A directory at the user's path, and a project path that may not be searched. -/
def barredFiles : FileView where
  status
    | "user" => .irregular
    | "project" => .hidden
    | _ => .missing
  read
    | "user" => .error .isDirectory
    | "project" => .error .permissionDenied
    | _ => .error .notFound

/-- Neither of the two can be read, and neither is warned about. -/
theorem load_barred :
    loadFile barredFiles "user" = .error (.unreadable "user" .isDirectory) ∧
      loadFile barredFiles "project" = .error (.unreadable "project" .permissionDenied) ∧
      ∃ loaded, load { user := some "user", project := "project" } barredFiles = .ok loaded ∧
        loaded.sources = [⟨"user", false⟩, ⟨"project", false⟩] ∧ loaded.warnings = [] :=
  ⟨rfl, rfl, _, rfl, rfl, rfl⟩

end Discovery

end SessionCache
