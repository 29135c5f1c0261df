import SessionCache.Config.Resolved
import SessionCache.Proofs.Config.Precedence

/-!
# What a layer resolves to

A layer resolves unless it has one of three flaws, and then to what it sets with all that it leaves
open filled in. The path counts only where the store needs one.

* `Layer.resolve_eq`: resolving is to look for a flaw and to fill in the rest.
* `Layer.resolve_eq_ok_iff`, `Layer.resolve_eq_error_iff`: when a layer resolves, and when it does
  not.
* `Layer.resolve_congr`: layers that set the same resolve to the same.
-/

namespace SessionCache

namespace Layer

/-- The `StoreKind` of `layer`, by default in memory. -/
def kind (layer : Layer) : StoreKind := (layer.value? .backend).getD .memory

/-- The first error of `Layer.resolve`. -/
def flaw? (layer : Layer) : Option ConfigError :=
  let maxSize : Option Nat := layer.value? .maxSize
  let sweepInterval : Option Nat := layer.value? .sweepInterval
  let path : Option String := layer.value? .path
  if maxSize = some 0 then some .noRoom
  else if sweepInterval = some 0 then some .noSweepInterval
  else if layer.kind.needsPath ∧ path = none then some (.noStorePath layer.kind)
  else none

/-- `layer` with the default for every setting that it leaves open. -/
def filled (layer : Layer) : Resolved where
  maxSize := (layer.value? .maxSize).getD defaultMaxSize
  idleTimeout := (layer.value? .idleTimeout).bind timeoutOf
  blockOnFull := (layer.value? .blockOnFull).getD false
  blockTimeout := .ofMillis ((layer.value? .blockTimeout).getD defaultBlockTimeout)
  sweepInterval := .ofMillis ((layer.value? .sweepInterval).getD defaultSweepInterval)
  removalTimeout := (layer.value? .removalTimeout).bind timeoutOf
  store := layer.kind
  path := if layer.kind.needsPath then layer.value? .path else none
  level := (layer.value? .level).getD defaultLevel
  file := layer.value? .file

/-- A field of a section that may be missing. -/
theorem getD_field {α β : Type} (given : Option α) (empty : α) (field : α → Option β)
    (hempty : field empty = none) : field (given.getD empty) = given.bind field := by
  cases given with
  | none => exact hempty
  | some _ => rfl

theorem getD_eq_zero_iff {value : Option Nat} {default : Nat} (hdefault : default ≠ 0) :
    value.getD default = 0 ↔ value = some 0 := by
  cases value <;> simp [hdefault]

/-- `resolve` is `flaw?`, or else `filled`. -/
theorem resolve_eq (layer : Layer) :
    layer.resolve =
      match layer.flaw? with
      | some e => .error e
      | none => .ok layer.filled := by
  have hcache {β : Type} (field : CacheLayer → Option β) (h : field {} = none) :=
    getD_field layer.cache {} field h
  have hstore {β : Type} (field : StoreLayer → Option β) (h : field {} = none) :=
    getD_field layer.store {} field h
  have hlogging {β : Type} (field : LoggingLayer → Option β) (h : field {} = none) :=
    getD_field layer.logging {} field h
  have hmaxSize : (layer.cache.getD {}).maxSize = layer.value? .maxSize := hcache (·.maxSize) rfl
  have hsweepInterval : (layer.cache.getD {}).sweepInterval = layer.value? .sweepInterval :=
    hcache (·.sweepInterval) rfl
  have hkind : (layer.store.getD {}).backend.getD .memory = layer.kind :=
    congrArg (Option.getD · StoreKind.memory) (hstore (·.backend) rfl)
  have hpath : (layer.store.getD {}).path = layer.value? .path := hstore (·.path) rfl
  have hroom : (layer.value? .maxSize).getD defaultMaxSize = (0 : Nat) ↔
      (layer.value? .maxSize : Option Nat) = some 0 := getD_eq_zero_iff (by decide)
  have hsweep : (layer.value? .sweepInterval).getD defaultSweepInterval = (0 : Nat) ↔
      (layer.value? .sweepInterval : Option Nat) = some 0 := getD_eq_zero_iff (by decide)
  have hwhere : ((layer.kind.needsPath && (layer.value? .path : Option String).isNone) = true) ↔
      layer.kind.needsPath ∧ (layer.value? .path : Option String) = none := by
    rw [Bool.and_eq_true, Option.isNone_iff_eq_none]
  simp only [resolve, flaw?, hmaxSize, hsweepInterval, hkind, hpath]
  by_cases hsize : (layer.value? .maxSize : Option Nat) = some 0
  · rw [if_pos hsize, if_pos (hroom.2 hsize)]
    rfl
  rw [if_neg hsize, if_neg (hroom.not.2 hsize)]
  by_cases hinterval : (layer.value? .sweepInterval : Option Nat) = some 0
  · rw [if_pos hinterval, if_pos (hsweep.2 hinterval)]
    rfl
  rw [if_neg hinterval, if_neg (hsweep.not.2 hinterval)]
  by_cases hplace : layer.kind.needsPath ∧ (layer.value? .path : Option String) = none
  · rw [if_pos hplace, if_pos (hwhere.2 hplace)]
    rfl
  · rw [if_neg hplace, if_neg (hwhere.not.2 hplace)]
    simp only [hcache (·.idleTimeout) rfl, hcache (·.blockOnFull) rfl, hcache (·.blockTimeout) rfl,
      hcache (·.removalTimeout) rfl, hlogging (·.level) rfl, hlogging (·.file) rfl]
    rfl

/-- `flaw? = none` in terms of the settings. -/
theorem flaw?_eq_none_iff (layer : Layer) :
    layer.flaw? = none ↔
      (layer.value? .maxSize : Option Nat) ≠ some 0 ∧
        (layer.value? .sweepInterval : Option Nat) ≠ some 0 ∧
        ¬(layer.kind.needsPath ∧ (layer.value? .path : Option String) = none) := by
  simp only [flaw?]
  split_ifs <;> simp_all

theorem resolve_eq_ok_iff {layer : Layer} {r : Resolved} :
    layer.resolve = .ok r ↔ layer.flaw? = none ∧ layer.filled = r := by
  rw [resolve_eq]
  cases layer.flaw? <;> simp

theorem resolve_eq_error_iff {layer : Layer} {e : ConfigError} :
    layer.resolve = .error e ↔ layer.flaw? = some e := by
  rw [resolve_eq]
  cases layer.flaw? <;> simp

/-- Without `flaw?`, a `StoreKind` that needs a path has one. -/
theorem filled_path_ne_none {layer : Layer} (h : layer.flaw? = none)
    (hneeds : layer.filled.store.needsPath) : layer.filled.path ≠ none := by
  intro hnone
  have hpath : layer.filled.path = layer.value? .path := if_pos hneeds
  exact ((flaw?_eq_none_iff layer).1 h).2.2 ⟨hneeds, hpath ▸ hnone⟩

/-- `resolve` depends on the settings only, and on `.path` only if the `kind` needs it. -/
theorem resolve_congr {a b : Layer} (h : ∀ s, s ≠ .path → a.value? s = b.value? s)
    (hpath : a.kind.needsPath → a.value? .path = b.value? .path) : a.resolve = b.resolve := by
  have hkind : a.kind = b.kind := congrArg (Option.getD · StoreKind.memory) (h .backend nofun)
  have hflaw : a.flaw? = b.flaw? := by
    simp only [flaw?, ← hkind, h .maxSize nofun, h .sweepInterval nofun]
    by_cases hneeds : a.kind.needsPath
    · simp only [hpath hneeds]
    · simp only [hneeds, false_and, Bool.false_eq_true, if_false]
  have hfilled : a.filled = b.filled := by
    have hplace : (if a.kind.needsPath then a.value? .path else none) =
        if a.kind.needsPath then b.value? .path else none := by
      split
      · rename_i hneeds; exact hpath hneeds
      · rfl
    simp only [filled, ← hkind, hplace, h .maxSize nofun, h .idleTimeout nofun,
      h .blockOnFull nofun, h .blockTimeout nofun, h .sweepInterval nofun,
      h .removalTimeout nofun, h .level nofun, h .file nofun]
  rw [resolve_eq, resolve_eq, hflaw, hfilled]

end Layer

end SessionCache
