import SessionCache.Proofs.Config.Resolving

/-!
# A configuration shown and read again

What a layer resolves to is shown as a layer that sets everything, with times as 64-bit numbers of
milliseconds and with zero for a timeout that is not there. Read again, that layer resolves to the
same, by itself and on top of the layer that it came from.

* `Layer.resolve_toLayer`, `Layer.resolve_merge_toLayer`: shown and read again.
* `Resolved.settings_eq`: the settings of a cache.
* `Layer.showing`: both, and when there is nothing to show.
-/

namespace SessionCache

theorem StoreKind.needsPath_iff {kind : StoreKind} :
    kind.needsPath ↔ kind = .file ∨ kind = .sqlite := by
  cases kind <;> simp [needsPath]

namespace Resolved

/-! ## Times -/

/-- `wordMillis` is exact below `2 ^ 64`. -/
theorem wordMillis_ofMillis {ms : Nat} (h : ms < twoTo 64) : wordMillis (.ofMillis ms) = ms := by
  rw [wordMillis, Duration.millis_ofMillis, Nat.mod_eq_of_lt h]

/-- A timeout that is shown and read again: `none` is shown as 0, and 0 is read as `none`. -/
theorem timeoutOf_timeoutMillis {given : Option Nat} (h : ∀ ms ∈ given, ms < twoTo 64) :
    timeoutOf (timeoutMillis (given.bind timeoutOf)) = given.bind timeoutOf := by
  cases given with
  | none => rfl
  | some ms =>
    by_cases hpos : 0 < ms
    · have hgiven : (some ms).bind timeoutOf = some (.ofMillis ms) := if_pos hpos
      rw [hgiven, timeoutMillis, Option.map_some, Option.getD_some,
        wordMillis_ofMillis (h ms rfl)]
      exact hgiven
    · have hgiven : (some ms).bind timeoutOf = none := if_neg hpos
      rw [hgiven]
      rfl

/-! ## Settings -/

/-- `settings` of a `Resolved` with `1 ≤ maxSize`. -/
theorem settings_eq {r : Resolved} (hroom : 1 ≤ r.maxSize) :
    r.settings =
      { maxSize := r.maxSize
        idleTimeout := r.idleTimeout
        blockOnFull := r.blockOnFull
        blockTimeout := if r.blockOnFull then r.blockTimeout else ({} : Settings).blockTimeout
        sweepInterval := r.sweepInterval
        removalTimeout := r.removalTimeout } := by
  have hsize : max r.maxSize 1 = r.maxSize := by omega
  unfold settings
  cases r.idleTimeout <;> cases r.removalTimeout <;> cases r.blockOnFull <;>
    simp [Settings.withMaxSize, Settings.withSweepInterval, Settings.withIdleTimeout,
      Settings.withRemovalTimeout, Settings.withBlocking, Settings.failFast, hsize]

end Resolved

namespace Layer

/-! ## Shown and read again -/

/-- Every time in `layer` is below `2 ^ 64` ms. -/
structure InWords (layer : Layer) : Prop where
  idleTimeout : ∀ ms : Nat, layer.value? .idleTimeout = some ms → ms < twoTo 64
  blockTimeout : ∀ ms : Nat, layer.value? .blockTimeout = some ms → ms < twoTo 64
  sweepInterval : ∀ ms : Nat, layer.value? .sweepInterval = some ms → ms < twoTo 64
  removalTimeout : ∀ ms : Nat, layer.value? .removalTimeout = some ms → ms < twoTo 64

variable {layer : Layer} {r : Resolved}

theorem getD_lt {given : Option Nat} {default bound : Nat} (h : ∀ ms, given = some ms → ms < bound)
    (hdefault : default < bound) : given.getD default < bound := by
  cases given with
  | none => exact hdefault
  | some ms => exact h ms rfl

/-- Without `flaw?`, `maxSize` and `sweepInterval` are positive. -/
theorem filled_pos (h : layer.flaw? = none) :
    1 ≤ layer.filled.maxSize ∧ 0 < (layer.value? .sweepInterval).getD defaultSweepInterval := by
  obtain ⟨hroom, hsweep, -⟩ := (flaw?_eq_none_iff layer).mp h
  exact ⟨Nat.one_le_iff_ne_zero.mpr fun h0 => hroom ((getD_eq_zero_iff (by decide)).mp h0),
    Nat.pos_of_ne_zero fun h0 => hsweep ((getD_eq_zero_iff (by decide)).mp h0)⟩

/-- `filled` of `toLayer`. -/
theorem filled_toLayer (r : Resolved) :
    r.toLayer.filled =
      { r with
        idleTimeout := timeoutOf (Resolved.timeoutMillis r.idleTimeout)
        blockTimeout := .ofMillis (Resolved.wordMillis r.blockTimeout)
        sweepInterval := .ofMillis (Resolved.wordMillis r.sweepInterval)
        removalTimeout := timeoutOf (Resolved.timeoutMillis r.removalTimeout)
        path := if r.store.needsPath then r.path else none } := by
  simp only [filled, kind, value?, Resolved.toLayer, Option.bind_some, Option.getD_some]
  rfl

/-- `resolve` of `r.toLayer` is `r`. -/
theorem resolve_toLayer (hwords : layer.InWords) (h : layer.resolve = .ok r) :
    r.toLayer.resolve = .ok r := by
  obtain ⟨hflaw, rfl⟩ := resolve_eq_ok_iff.mp h
  obtain ⟨hroom, hpos⟩ := filled_pos hflaw
  have hblock : Resolved.wordMillis layer.filled.blockTimeout =
      (layer.value? .blockTimeout).getD defaultBlockTimeout :=
    Resolved.wordMillis_ofMillis (getD_lt hwords.blockTimeout (by decide))
  have hsweep : Resolved.wordMillis layer.filled.sweepInterval =
      (layer.value? .sweepInterval).getD defaultSweepInterval :=
    Resolved.wordMillis_ofMillis (getD_lt hwords.sweepInterval (by decide))
  have hflaw' : layer.filled.toLayer.flaw? = none := by
    refine (flaw?_eq_none_iff _).mpr ⟨?_, ?_, fun ⟨hneeds, hpath⟩ => ?_⟩
    · exact fun h0 => Nat.ne_of_gt hroom (Option.some.inj h0)
    · exact fun h0 => Nat.ne_of_gt hpos (hsweep ▸ Option.some.inj h0)
    · exact filled_path_ne_none hflaw hneeds hpath
  have hpath : (if layer.filled.store.needsPath then layer.filled.path else none) =
      layer.filled.path := by
    unfold filled
    split <;> rfl
  refine resolve_eq_ok_iff.mpr ⟨hflaw', ?_⟩
  rw [filled_toLayer, hblock, hsweep, hpath]
  simp only [filled, Resolved.timeoutOf_timeoutMillis hwords.idleTimeout,
    Resolved.timeoutOf_timeoutMillis hwords.removalTimeout]

/-- `r.toLayer` on top of `layer` resolves to the same as alone, though `layer` may have a `.path`
that is not needed. -/
theorem resolve_merge_toLayer (h : layer.resolve = .ok r) :
    (layer.merge r.toLayer).resolve = r.toLayer.resolve := by
  obtain ⟨-, rfl⟩ := resolve_eq_ok_iff.mp h
  refine resolve_congr (fun s hs => ?_) fun hneeds => ?_
  · rw [value?_merge]
    cases s with
    | path => exact absurd rfl hs
    | file => exact Option.or_self
    | _ => rfl
  · have hkind : (layer.merge layer.filled.toLayer).kind = layer.kind := by
      rw [kind, value?_merge]
      rfl
    have hpath : layer.filled.path = layer.value? .path := if_pos (hkind ▸ hneeds)
    rw [value?_merge]
    change layer.filled.path.or (layer.value? .path) = layer.filled.path
    rw [hpath, Option.or_self]

/-! ## What does not resolve -/

/-- `resolve` fails exactly on `maxSize = 0`, on `sweepInterval = 0`, or on a store that needs a
path and has none. -/
theorem resolve_error_iff (layer : Layer) :
    (∃ e, layer.resolve = .error e) ↔
      (layer.value? .maxSize : Option Nat) = some 0 ∨
        (layer.value? .sweepInterval : Option Nat) = some 0 ∨
        ((layer.value? .backend : Option StoreKind) = some .file ∨
            (layer.value? .backend : Option StoreKind) = some .sqlite) ∧
          (layer.value? .path : Option String) = none := by
  have hkind : layer.kind.needsPath ↔
      (layer.value? .backend : Option StoreKind) = some .file ∨
        (layer.value? .backend : Option StoreKind) = some .sqlite := by
    rw [StoreKind.needsPath_iff, kind]
    cases (layer.value? .backend : Option StoreKind) <;> simp
  have hflaw : (∃ e, layer.resolve = .error e) ↔ layer.flaw? ≠ none := by
    simp only [resolve_eq_error_iff]
    exact Option.ne_none_iff_exists'.symm
  rw [hflaw, ne_eq, flaw?_eq_none_iff, hkind]
  tauto

/-- For every layer with times below `2 ^ 64` ms: if it resolves to `r`, then so does `r.toLayer`,
alone and on top of the layer, and `r.settings` are as `r` shows. And it fails to resolve exactly on
`maxSize = 0`, on `sweepInterval = 0`, or on a store that needs a path and has none. -/
theorem showing (layer : Layer) (hwords : layer.InWords) :
    (∀ r, layer.resolve = .ok r →
      r.toLayer.resolve = .ok r ∧ (layer.merge r.toLayer).resolve = .ok r ∧
      (r.settings.maxSize = r.maxSize ∧ 1 ≤ r.maxSize) ∧
      r.settings.idleTimeout = r.idleTimeout ∧ r.settings.removalTimeout = r.removalTimeout ∧
      (r.settings.sweepInterval = r.sweepInterval ∧ 0 < r.sweepInterval.nanos) ∧
      r.settings.blockOnFull = r.blockOnFull ∧
      (r.blockOnFull = true → r.settings.blockTimeout = r.blockTimeout)) ∧
    ((∃ e, layer.resolve = .error e) ↔
      (layer.value? .maxSize : Option Nat) = some 0 ∨
        (layer.value? .sweepInterval : Option Nat) = some 0 ∨
        ((layer.value? .backend : Option StoreKind) = some .file ∨
            (layer.value? .backend : Option StoreKind) = some .sqlite) ∧
          (layer.value? .path : Option String) = none) := by
  refine ⟨fun r h => ?_, resolve_error_iff layer⟩
  have hshown := resolve_toLayer hwords h
  have hmerged := (resolve_merge_toLayer h).trans hshown
  obtain ⟨hflaw, rfl⟩ := resolve_eq_ok_iff.mp h
  obtain ⟨hroom, hpos⟩ := filled_pos hflaw
  have hnanos : 0 < layer.filled.sweepInterval.nanos := Nat.mul_pos hpos (by decide)
  rw [Resolved.settings_eq hroom]
  exact ⟨hshown, hmerged, ⟨rfl, hroom⟩, rfl, rfl, ⟨rfl, hnanos⟩, rfl, fun hblock => if_pos hblock⟩

/-- The theorem applies to times of `2 ^ 64 - 1` ms and of 0, and to a path that is not needed. -/
theorem showing_of_extremes :
    let layer : Layer :=
      { cache := some { idleTimeout := some 0, blockTimeout := some (twoTo 64 - 1),
                        sweepInterval := some (twoTo 64 - 1), removalTimeout := some (twoTo 64 - 1) }
        store := some { path := some "sessions" } }
    layer.InWords ∧ ∃ r, layer.resolve = .ok r ∧ r.idleTimeout = none ∧ r.path = none ∧
      r.toLayer.resolve = .ok r ∧ (layer.merge r.toLayer).resolve = .ok r := by
  intro layer
  have hwords : layer.InWords := by
    constructor <;> rintro ms h <;> obtain rfl := Option.some.inj h <;> decide
  have hr : layer.resolve = .ok layer.filled := resolve_eq_ok_iff.mpr ⟨by decide, rfl⟩
  obtain ⟨hshown, hmerged, -⟩ := (layer.showing hwords).1 _ hr
  exact ⟨hwords, _, hr, rfl, rfl, hshown, hmerged⟩

end Layer

end SessionCache
