import SessionCache.Proofs.Traffic.Places

/-!
# What is written down of a path

The deeds of a path can be told from outside in two ways: callbacks that keep a log have written
down every firing, in order, and the cache has counted every removal.

* `Path.log`: where the log was, and the firings of the path after it.
* `Path.removed`: one more removal for every deed that counts as one.
-/

namespace SessionCache

variable {σ ι ω : Type} {s : Surroundings σ ι ω} {x x' : Scene σ ι ω} {ds ds' : List (Deed σ)}

/-- The firing of a deed `fired f`. -/
def Deed.firing? : Deed σ → Option Firing
  | .fired f => some f
  | _ => none

/-- The firings among `ds`, in order. -/
def firings (ds : List (Deed σ)) : List Firing := ds.filterMap (·.firing?)

@[simp]
theorem firings_append (ds ds' : List (Deed σ)) : firings (ds ++ ds') = firings ds ++ firings ds' :=
  List.filterMap_append

@[simp]
theorem firings_fired (fs : List Firing) : firings (fs.map Deed.fired : List (Deed σ)) = fs := by
  rw [firings, List.filterMap_map]
  exact List.filterMap_some

theorem firings_fired_append (fs : List Firing) (ds : List (Deed σ)) :
    firings (fs.map .fired ++ ds) = fs ++ firings ds := by
  rw [firings_append, firings_fired]

/-- Whether a deed adds one to `Counters.removed`: so do `removed`, `lost` and `spoiled`. -/
def Deed.counts : Deed σ → Bool
  | .removed _ | .lost _ | .spoiled _ => true
  | _ => false

theorem countP_counts_fired (fs : List Firing) :
    (fs.map Deed.fired : List (Deed σ)).countP (·.counts) = 0 := by
  rw [List.countP_map]
  exact List.countP_eq_zero.mpr fun f _ => Bool.false_ne_true

/-- The firings of a shift are a `Story` from `x.outside` to `x'.outside`. -/
theorem Shift.story (h : Shift s x ds x') : s.Story (firings ds) x.outside x'.outside := by
  cases h with
  | pass | count | promote | meet | edit | tamper | purge | ask | announce | take | quit | abandon
  | retreat | defer | spoil => exact .nil
  | attend fs _ ho => rw [firings_fired]; exact ho
  | unmade fs _ _ _ ho => rw [firings_fired_append]; exact (List.append_nil fs).symm ▸ ho
  | lose fs _ _ _ _ ho => rw [firings_fired_append]; exact ho
  | settle _ _ _ _ _ ho | loseComing _ _ ho | enter _ _ _ _ _ _ ho | checkOut _ _ _ _ ho
  | park _ _ _ _ ho | stay _ _ _ _ ho | leave _ _ ho | giveIn _ _ _ _ _ _ ho | leaveOut _ _ _ _ ho
  | loseOut _ _ _ _ _ ho | erase _ _ _ ho | loseParked _ _ _ ho => exact ho

theorem Path.story (h : Path s x ds x') : s.Story (firings ds) x.outside x'.outside := by
  induction h with
  | nil => exact .nil
  | cons hs _ ih => rw [firings_append]; exact hs.story.append ih

/-- Along a path, a `log` grows by the firings of its deeds. -/
theorem Path.log {log : ω → List Firing} (hlog : s.Logs log) (h : Path s x ds x') :
    log x'.outside = log x.outside ++ firings ds := h.story.log hlog

/-- A shift adds its deeds that count to `Counters.removed`. -/
theorem Shift.removed (h : Shift s x ds x') :
    x'.cache.counters.removed = x.cache.counters.removed + ds.countP (·.counts) := by
  cases h with
  | count counters h => exact h
  | promote key => exact congrArg Counters.removed (Cache.promote_counters _ _)
  | attend fs => rw [countP_counts_fired]; rfl
  | unmade fs => rw [List.countP_append, countP_counts_fired]; rfl
  | lose fs => rw [List.countP_append, countP_counts_fired]; rfl
  | _ => rfl

theorem Path.removed (h : Path s x ds x') :
    x'.cache.counters.removed = x.cache.counters.removed + ds.countP (·.counts) := by
  induction h with
  | nil => rfl
  | cons hs _ ih => rw [ih, hs.removed, List.countP_append, Nat.add_assoc]

/-- The firings among the deeds about `k` are those among all deeds with `k` as their key. -/
theorem firings_about (k : Key) (ds : List (Deed σ)) :
    firings (about k ds) = (firings ds).filter (·.key = k) := by
  induction ds with
  | nil => rfl
  | cons e ds ih =>
    have hcons : about k (e :: ds) = about k [e] ++ about k ds := about_append [e] ds
    have hcons' : firings (e :: ds) = firings [e] ++ firings ds := firings_append [e] ds
    have hone : firings (about k [e]) = (firings [e]).filter (·.key = k) := by
      cases e with
      | fired f => by_cases hf : f.key = k <;> simp [about, firings, Deed.key?, Deed.firing?, hf]
      | _ => simp [about, firings, Deed.firing?, List.filter_cons]
    rw [hcons, hcons', firings_append, ih, hone, List.filter_append]

end SessionCache
