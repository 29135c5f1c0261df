/-!
# The life of a session

A session is at one `Stage`; an `Event` moves it to the next one, and `Stage.next?` says which
moves there are. Around every move callbacks run, each in a `Phase`.

* `Stage.next?_removed`: nothing leads out of `removed`.
* `Stage.next?_create_iff`: only a new session can be created.
-/

namespace SessionCache

/-- The states of a session. -/
inductive Stage where
  /-- `.postConstruct` has not finished. -/
  | new
  /-- In memory and not checked out. -/
  | ready
  /-- Checked out by one caller. -/
  | inUse
  /-- Only in the store. -/
  | passivated
  /-- Removed. -/
  | removed
  deriving DecidableEq, Repr

/-- The transitions of a session. -/
inductive Event where
  | create
  | get
  | finish
  | evict
  | activate
  | remove
  deriving DecidableEq, Repr

/-- The callbacks of a session. -/
inductive Phase where
  | postConstruct
  | preInvoke
  | postInvoke
  | prePassivate
  | postPassivate
  | preActivate
  | postActivate
  | preDestroy
  deriving DecidableEq, Repr

/-- The name that a stage is printed with. -/
def Stage.name : Stage → String
  | .new => "new"
  | .ready => "ready"
  | .inUse => "in_use"
  | .passivated => "passivated"
  | .removed => "removed"

/-- Every stage. -/
def Stage.all : List Stage := [.new, .ready, .inUse, .passivated, .removed]

/-- Inverse of `Stage.name`. -/
def Stage.ofName? (name : String) : Option Stage := Stage.all.find? (·.name = name)

/-- The name that an event is printed with. -/
def Event.name : Event → String
  | .create => "create"
  | .get => "get"
  | .finish => "finish"
  | .evict => "evict"
  | .activate => "activate"
  | .remove => "remove"

/-- Every event. -/
def Event.all : List Event := [.create, .get, .finish, .evict, .activate, .remove]

/-- Inverse of `Event.name`. -/
def Event.ofName? (name : String) : Option Event := Event.all.find? (·.name = name)

/-- The name that a phase is printed with. -/
def Phase.name : Phase → String
  | .postConstruct => "post-construct"
  | .preInvoke => "pre-invoke"
  | .postInvoke => "post-invoke"
  | .prePassivate => "pre-passivate"
  | .postPassivate => "post-passivate"
  | .preActivate => "pre-activate"
  | .postActivate => "post-activate"
  | .preDestroy => "pre-destroy"

/-- Every phase, in the order of a session's life. -/
def Phase.all : List Phase :=
  [.postConstruct, .preInvoke, .postInvoke, .prePassivate, .postPassivate, .preActivate,
    .postActivate, .preDestroy]

/-- The transition table. There is no `.remove` from `.inUse`: `Op.remove` notes the removal, and
`Op.finish` applies it. -/
def Stage.next? : Stage → Event → Option Stage
  | .new, .create => some .ready
  | .ready, .get => some .inUse
  | .inUse, .finish => some .ready
  | .ready, .evict => some .passivated
  | .passivated, .activate => some .ready
  | .ready, .remove => some .removed
  | .passivated, .remove => some .removed
  | _, _ => none

/-- The stages that `events` lead to from `stage`, each with `next?`, and the last stage. An event
without `next?` leaves the stage. -/
def Stage.follow (stage : Stage) : List Event → List (Stage × Event × Option Stage) × Stage
  | [] => ([], stage)
  | event :: rest =>
    let next := stage.next? event
    let (steps, last) := Stage.follow (next.getD stage) rest
    ((stage, event, next) :: steps, last)

theorem Stage.next?_removed (e : Event) : Stage.removed.next? e = none := by cases e <;> rfl

theorem Stage.next?_create_iff {s t : Stage} :
    s.next? .create = some t ↔ s = .new ∧ t = .ready := by
  cases s <;> cases t <;> decide

end SessionCache
