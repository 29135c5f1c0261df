import SessionCache.Config.StoreKind

/-!
# Layers of configuration

A layer sets some of the ten settings. Layers are put on top of each other; of two that set the
same thing, the upper one counts.

* `Layer.merge` puts one layer on top of another.
* `Layer.merge_empty`, `Layer.empty_merge`, `Layer.merge_assoc`: layers form a monoid.
-/

namespace SessionCache

/-- The fields of `[cache]`; times are in milliseconds. -/
structure CacheLayer where
  maxSize : Option Nat := none
  idleTimeout : Option Nat := none
  blockOnFull : Option Bool := none
  blockTimeout : Option Nat := none
  sweepInterval : Option Nat := none
  removalTimeout : Option Nat := none
  deriving DecidableEq, Repr

/-- The fields of `[store]`. -/
structure StoreLayer where
  backend : Option StoreKind := none
  /-- The directory of `file`, or the database file of `sqlite`. -/
  path : Option String := none
  deriving DecidableEq, Repr

/-- The fields of `[logging]`. -/
structure LoggingLayer where
  level : Option String := none
  /-- The directory of the log files. -/
  file : Option String := none
  deriving DecidableEq, Repr

/-- A layer of configuration: three sections, each of which may be missing. -/
structure Layer where
  cache : Option CacheLayer := none
  store : Option StoreLayer := none
  logging : Option LoggingLayer := none
  deriving DecidableEq, Repr

/-- `upper`, or `lower` where `upper` is not set. -/
def topmost {α : Type} (lower upper : Option α) : Option α := upper.or lower

/-- `merge` of two sections that are both there; else the one that is. -/
def mergeSections {α : Type} (merge : α → α → α) : Option α → Option α → Option α
  | some lower, some upper => some (merge lower upper)
  | lower, none => lower
  | none, upper => upper

/-- `topmost` of every field. -/
def CacheLayer.merge (lower upper : CacheLayer) : CacheLayer where
  maxSize := topmost lower.maxSize upper.maxSize
  idleTimeout := topmost lower.idleTimeout upper.idleTimeout
  blockOnFull := topmost lower.blockOnFull upper.blockOnFull
  blockTimeout := topmost lower.blockTimeout upper.blockTimeout
  sweepInterval := topmost lower.sweepInterval upper.sweepInterval
  removalTimeout := topmost lower.removalTimeout upper.removalTimeout

/-- `topmost` of every field. -/
def StoreLayer.merge (lower upper : StoreLayer) : StoreLayer where
  backend := topmost lower.backend upper.backend
  path := topmost lower.path upper.path

/-- `topmost` of every field. -/
def LoggingLayer.merge (lower upper : LoggingLayer) : LoggingLayer where
  level := topmost lower.level upper.level
  file := topmost lower.file upper.file

/-- `mergeSections` of every section. -/
def Layer.merge (lower upper : Layer) : Layer where
  cache := mergeSections CacheLayer.merge lower.cache upper.cache
  store := mergeSections StoreLayer.merge lower.store upper.store
  logging := mergeSections LoggingLayer.merge lower.logging upper.logging

/-! ## Laws -/

theorem topmost_assoc {α : Type} (a b c : Option α) :
    topmost (topmost a b) c = topmost a (topmost b c) := by
  cases a <;> cases b <;> cases c <;> rfl

theorem mergeSections_assoc {α : Type} (merge : α → α → α)
    (h : ∀ a b c, merge (merge a b) c = merge a (merge b c)) (a b c : Option α) :
    mergeSections merge (mergeSections merge a b) c =
      mergeSections merge a (mergeSections merge b c) := by
  cases a <;> cases b <;> cases c <;> simp [mergeSections, h]

@[simp] theorem Layer.merge_empty (layer : Layer) : layer.merge {} = layer := by
  obtain ⟨c, s, l⟩ := layer
  cases c <;> cases s <;> cases l <;> rfl

@[simp] theorem Layer.empty_merge (layer : Layer) : Layer.merge {} layer = layer := by
  obtain ⟨c, s, l⟩ := layer
  cases c <;> cases s <;> cases l <;> rfl

theorem Layer.merge_assoc (a b c : Layer) : (a.merge b).merge c = a.merge (b.merge c) := by
  simp only [Layer.merge, Layer.mk.injEq]
  refine ⟨mergeSections_assoc _ (fun a b c => ?_) _ _ _, mergeSections_assoc _ (fun a b c => ?_) _ _ _,
    mergeSections_assoc _ (fun a b c => ?_) _ _ _⟩
  · simp only [CacheLayer.merge, topmost_assoc]
  · simp only [StoreLayer.merge, topmost_assoc]
  · simp only [LoggingLayer.merge, topmost_assoc]

end SessionCache
