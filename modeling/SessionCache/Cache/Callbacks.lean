import SessionCache.Cache.World

/-!
# Callbacks

In every phase one sequence runs: `before` of each interceptor, in the order of their registration,
then the callback of the bean, then `after` of each interceptor, in the opposite order. The first
member that fails ends it.

* `PhaseContext`: what an interceptor is shown. It can write into the state, and put something else
  into any of the three fields (`Leaving`); the next members are shown what it left.
* `Frame`: a phase under way. The state of the session itself is `own`, also where `shown` says that
  the field of the context stands for something else.
* `Lifecycle.members`: the sequence. `runChain` runs it; `Lifecycle.fire` is the whole phase.
* The callback of the bean is not called where a phase has a state to show and the field is empty
  (`Lifecycle.beanMember`).
-/

namespace SessionCache

variable {σ ι ω : Type}

/-- A callback: from the phase, the key and the state to the state afterwards, and the message of
its failure if it failed. -/
abbrev Callback (σ ω : Type) := Phase → Key → Option σ → Act σ ω (Option σ × Option String)

/-- A callback that does nothing. -/
def Callback.idle : Callback σ ω := fun _ _ state => pure (state, none)

/-- Whether the state is in the store and not in memory when the callbacks of `phase` run: so it is
for `.postPassivate` and `.preActivate`. -/
def Phase.isStored (phase : Phase) : Bool := phase = .postPassivate || phase = .preActivate

/-! ## Interceptors -/

/-- What an interceptor is given of a phase: the fields `key`, `phase` and `state`. -/
structure PhaseContext (σ : Type) where
  key : Key
  phase : Phase
  state : Option σ

/-- What an interceptor makes of the field `PhaseContext.state`. -/
inductive StateField (σ : Type) where
  | kept
  | emptied
  /-- The field refers to `state`, and no longer to the session. -/
  | replaced (state : σ)

/-- What an interceptor leaves in a `PhaseContext`. -/
structure Leaving (σ : Type) where
  key : Key
  phase : Phase
  /-- What it wrote through the reference in `state`, if it wrote. -/
  written : Option σ := none
  field : StateField σ := .kept

/-- A method of an interceptor. -/
abbrev Hook (σ ω : Type) := PhaseContext σ → Act σ ω (Leaving σ × Option String)

/-- The method that writes nothing and leaves every field as it is. -/
def Hook.idle : Hook σ ω := fun context => pure ({ key := context.key, phase := context.phase }, none)

/-- A `Callback` as the method of an interceptor: its result is written through
`PhaseContext.state`, and the fields are left as they are. -/
def Callback.hook (c : Callback σ ω) : Hook σ ω := fun context => do
  let (written, failure) ← c context.phase context.key context.state
  return ({ key := context.key, phase := context.phase, written }, failure)

/-- The methods of an interceptor, which run before and after the callback of the bean. -/
structure Interceptor (σ ω : Type) where
  before : Hook σ ω := Hook.idle
  after : Hook σ ω := Hook.idle

/-- Makes the sessions of a cache by `instantiate`, and has a callback of its own for each phase. -/
structure Bean (σ ι ω : Type) where
  /-- The first state of a session, or the message of the failure. -/
  instantiate : Key → ι → Act σ ω (Except String σ)
  callback : Callback σ ω := Callback.idle

/-- A bean, and the interceptors around it, the outermost first. -/
structure Lifecycle (σ ι ω : Type) where
  bean : Bean σ ι ω
  interceptors : List (Interceptor σ ω) := []

/-! ## A phase under way -/

/-- What `PhaseContext.state` refers to while a phase runs. -/
inductive Shown (σ : Type) where
  /-- The state of the session that the phase is about. -/
  | own
  | nothing
  | other (state : σ)

/-- A phase under way. `own` is the state of the session, `none` while it is in the store; `key`,
`phase` and `shown` are the fields of the `PhaseContext`. -/
structure Frame (σ : Type) where
  own : Option σ
  key : Key
  phase : Phase
  shown : Shown σ := .own

namespace Frame

/-- The frame in which `Lifecycle.runPhase` starts: `shown` refers to `state`. -/
def start (phase : Phase) (key : Key) (state : Option σ) : Frame σ := { own := state, key, phase }

variable (f : Frame σ)

/-- What the field `PhaseContext.state` refers to. -/
def state : Option σ :=
  match f.shown with
  | .own => f.own
  | .nothing => none
  | .other state => some state

/-- The `PhaseContext` that an interceptor is given. -/
def context : PhaseContext σ := ⟨f.key, f.phase, f.state⟩

/-- Writes through `PhaseContext.state`: into `own` where `shown` is `.own`, else into the other
state. Where the field is `none`, there is nothing to write to. -/
def write (written : Option σ) : Frame σ :=
  match f.shown with
  | .own => { f with own := f.own.map fun old => written.getD old }
  | .nothing => f
  | .other old => { f with shown := .other (written.getD old) }

/-- The frame after an interceptor: first `written` goes where `shown` refers to, then the fields
are as it left them. -/
def leave (left : Leaving σ) : Frame σ :=
  { f.write left.written with
    key := left.key
    phase := left.phase
    shown := match left.field with
      | .kept => (f.write left.written).shown
      | .emptied => .nothing
      | .replaced state => .other state }

@[simp] theorem write_key (written : Option σ) : (f.write written).key = f.key := by
  rw [write]
  split <;> rfl

@[simp] theorem write_phase (written : Option σ) : (f.write written).phase = f.phase := by
  rw [write]
  split <;> rfl

/-- Writing the state that is there changes nothing. -/
@[simp] theorem write_state : f.write f.state = f := by
  obtain ⟨own, key, phase, shown⟩ := f
  cases shown with
  | own => cases own <;> rfl
  | nothing => rfl
  | other state => rfl

@[simp] theorem write_none : f.write none = f := by
  obtain ⟨own, key, phase, shown⟩ := f
  cases shown with
  | own => cases own <;> rfl
  | nothing => rfl
  | other state => rfl

/-- Where the fields are left as they are, only `write` remains. -/
@[simp] theorem leave_fields (written : Option σ) :
    f.leave { key := f.key, phase := f.phase, written } = f.write written := by
  obtain ⟨own, key, phase, shown⟩ := f
  cases shown <;> rfl

end Frame

/-- One call in the sequence of a phase: the `Frame` afterwards, and the message of its failure if
it failed. -/
abbrev Member (σ ω : Type) := Frame σ → Act σ ω (Frame σ × Option String)

/-- The method `h` as a member: it is given `frame.context`, and the frame is left by
`Frame.leave`. -/
def Hook.member (h : Hook σ ω) : Member σ ω := fun frame => do
  let (left, failure) ← h frame.context
  return (frame.leave left, failure)

/-- The callback of a bean as a member. It is called for the `phase` and the `key` that were fired,
whatever the fields of the context say, and without a state where `phase.isStored`. -/
def Bean.member (b : Bean σ ι ω) (phase : Phase) (key : Key) : Member σ ω := fun frame => do
  if phase.isStored then
    let (_, failure) ← b.callback phase key none
    return (frame, failure)
  else
    let (written, failure) ← b.callback phase key frame.state
    return (frame.write written, failure)

/-- Runs members one after the other up to the first that fails. -/
def runChain : List (Member σ ω) → Member σ ω
  | [], frame => pure (frame, none)
  | m :: rest, frame => do
    let (after, failure) ← m frame
    match failure with
    | some message => pure (after, some message)
    | none => runChain rest after

namespace Callback

variable (c : Callback σ ω) (frame : Frame σ)

theorem member_hook : c.hook.member frame = (do
    let (written, failure) ← c frame.phase frame.key frame.state
    return (frame.write written, failure)) := by
  simp [Hook.member, hook, Frame.context]

end Callback

@[simp] theorem Hook.member_idle (frame : Frame σ) :
    (Hook.idle : Hook σ ω).member frame = pure (frame, none) := by
  simp [Hook.member, Hook.idle, Frame.context]

namespace Lifecycle

/-- Whether the bean's callback is called: it is left out where `PhaseContext.state` is `none` in a
phase that has a state to show. -/
def calls (phase : Phase) (frame : Frame σ) : Bool := phase.isStored || frame.state.isSome

/-- The callback of the bean where `calls` holds, else nothing. -/
def beanMember (l : Lifecycle σ ι ω) (phase : Phase) (key : Key) : Member σ ω := fun frame =>
  if calls phase frame then l.bean.member phase key frame else pure (frame, none)

theorem beanMember_of_idle {l : Lifecycle σ ι ω} (h : l.bean.callback = Callback.idle)
    (phase : Phase) (key : Key) (frame : Frame σ) :
    l.beanMember phase key frame = pure (frame, none) := by
  rw [beanMember, Bean.member, h]
  split
  · split <;> simp [Callback.idle]
  · rfl

/-- The members of a phase in order: the interceptors' methods before the bean, the bean, and the
methods after it. -/
def members (l : Lifecycle σ ι ω) (phase : Phase) (key : Key) : List (Member σ ω) :=
  l.interceptors.map (·.before.member) ++
    l.beanMember phase key :: l.interceptors.reverse.map (·.after.member)

/-- Runs the `members` of a phase up to the first that fails: the state `Frame.own` afterwards, and
the message of the failure. -/
def runPhase (l : Lifecycle σ ι ω) (phase : Phase) (key : Key) (state : Option σ) :
    Act σ ω (Option σ × Option String) := do
  let (frame, failure) ← runChain (l.members phase key) (.start phase key state)
  return (frame.own, failure)

/-- Runs a phase: the state afterwards, or `.lifecycle key phase message` with the `key` and the
`phase` that were fired. -/
def fire (l : Lifecycle σ ι ω) (phase : Phase) (key : Key) (state : Option σ) :
    Op σ ω (Option σ) := do
  let (after, failure) ← ExceptT.lift (l.runPhase phase key state)
  match failure with
  | some message => throw (.lifecycle key phase message)
  | none => pure after

/-- `Bean.instantiate`; its failure is `.lifecycle key .postConstruct message`. -/
def instantiate (l : Lifecycle σ ι ω) (key : Key) (args : ι) : Op σ ω σ := do
  match ← ExceptT.lift (l.bean.instantiate key args) with
  | .ok state => pure state
  | .error message => throw (.lifecycle key .postConstruct message)

end Lifecycle

/-- What the operations of a cache depend on: codec, lifecycle, settings, and how keys are made and
time passes. -/
structure Surroundings (σ ι ω : Type) where
  settings : Settings
  codec : Codec σ
  lifecycle : Lifecycle σ ι ω
  /-- Makes a key that was never used before, for `Op.introduce`. -/
  freshKey : Act σ ω Key
  /-- Waits for the duration at most, while other operations run; it may change the world. -/
  wait : Duration → Act σ ω Unit
  /-- When an operation that starts in `w` gets the lock on the slots and the tracker; a time read
  under the lock is `lockedAt`, not `World.now`. -/
  lockedAt : World σ ω → Instant := World.now
  /-- How many rounds the loops of `Op.acquire`, `Op.get` and `Op.remove` make before they answer
  `.stalled`. -/
  patience : Nat

end SessionCache
