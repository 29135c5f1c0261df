import SessionCache.Proofs.Traffic.Firing

/-!
# Surroundings that keep a journal

Surroundings whose callbacks write down that they ran, leave states as they are, and fail where they
are told to. New keys come from a counter, first states are given, and nobody else does anything
while an operation waits.

* `Surroundings.recording_discreet`, `Surroundings.recording_logs`,
  `Surroundings.recording_turns`: what is asked of surroundings elsewhere, these fulfil.
-/

namespace SessionCache

variable {σ : Type}

/-! ## One callback -/

section

variable {ι ω : Type} {make : Key → ι → Act σ ω (Except String σ)} {c : Callback σ ω}

/-- A bean without callbacks of its own, and one interceptor, whose method before the bean is
`c`. -/
def Lifecycle.around (make : Key → ι → Act σ ω (Except String σ)) (c : Callback σ ω) :
    Lifecycle σ ι ω where
  bean := { instantiate := make }
  interceptors := [{ before := c.hook }]

theorem Lifecycle.members_around (phase : Phase) (key : Key) :
    (around make c).members phase key =
      [c.hook.member, (around make c).beanMember phase key, (Hook.idle : Hook σ ω).member] := rfl

/-- Running a phase of `around make c` is running `c`. -/
theorem Lifecycle.run_around (phase : Phase) (key : Key) (state : Option σ) (w : World σ ω) :
    ((around make c).runPhase phase key state).run w =
      let ((written, failure), w') := (c phase key state).run w
      ((state.map fun old => written.getD old, failure), w') := by
  have hrun : (c.hook.member (.start phase key state)).run w =
      let ((written, failure), w') := (c phase key state).run w
      ((.start phase key (state.map fun old => written.getD old), failure), w') := by
    rw [Callback.member_hook]
    rfl
  have hbean : ∀ frame (w : World σ ω),
      ((around make c).beanMember phase key frame).run w = ((frame, none), w) := fun frame w => by
    rw [beanMember_of_idle rfl]
    rfl
  have hidle : ∀ frame (w : World σ ω), ((Hook.idle : Hook σ ω).member frame).run w =
      ((frame, none), w) := fun frame w => by
    rw [Hook.member_idle]
    rfl
  rw [run_runPhase, members_around, run_runChain_cons, hrun]
  rcases (c phase key state).run w with ⟨⟨written, _ | message⟩, w'⟩
  · simp only [run_runChain_cons, hbean, hidle]
    rfl
  · rfl

theorem Lifecycle.aside_around
    (hc : ∀ phase key state w, Aside w ((c phase key state).run w).2) (phase : Phase) (key : Key) :
    ∀ m ∈ (around make c).members phase key, ∀ frame w, Aside w ((m frame).run w).2 := by
  rw [members_around]
  refine List.forall_mem_cons.mpr ⟨fun frame w => ?_, List.forall_mem_cons.mpr ⟨fun frame w => ?_,
    List.forall_mem_singleton.mpr fun frame w => ?_⟩⟩
  · rw [Callback.member_hook]
    exact hc frame.phase frame.key frame.state w
  · rw [beanMember_of_idle rfl]
    exact .refl w
  · rw [Hook.member_idle]
    exact .refl w

end

/-! ## Journals -/

/-- What is written down outside: the number of keys that were made, and every firing. -/
structure Journal where
  made : Nat := 0
  log : List Firing := []

/-- A callback that adds its firing to `Journal.log`, and fails where `fails phase key`. -/
def Callback.record (fails : Phase → Key → Bool) : Callback σ Journal := fun phase key state => do
  modify fun w =>
    { w with
      outside := { w.outside with log := w.outside.log ++ [⟨phase, key, fails phase key⟩] } }
  return (state, if fails phase key then some "refused" else none)

namespace Surroundings

/-- Surroundings with a `Journal`: the `n`-th fresh key is `keyOf n`, and the callbacks fail where
`fails phase key`. -/
def recording (settings : Settings) (codec : Codec σ) (fails : Phase → Key → Bool)
    (keyOf : Nat → Key) : Surroundings σ σ Journal where
  settings
  codec
  lifecycle := .around (fun _ state => pure (.ok state)) (Callback.record fails)
  freshKey := fun w =>
    (keyOf w.outside.made, { w with outside := { w.outside with made := w.outside.made + 1 } })
  wait := fun _ => pure ()
  patience := settings.maxSize + 2

variable {settings : Settings} {codec : Codec σ} {fails : Phase → Key → Bool} {keyOf : Nat → Key}

theorem recording_phase (phase : Phase) (key : Key) (state : Option σ) (w : World σ Journal) :
    ((recording settings codec fails keyOf).lifecycle.runPhase phase key state).run w =
      ((state, if fails phase key then some "refused" else none),
        { w with
          outside :=
            { w.outside with log := w.outside.log ++ [⟨phase, key, fails phase key⟩] } }) := by
  rw [recording, Lifecycle.run_around]
  cases state <;> rfl

/-- A firing in these surroundings adds itself to the journal, and fails as `fails` says. -/
theorem recording_fires {f : Firing} {o o' : Journal}
    (h : (recording settings codec fails keyOf).Fires f o o') :
    fails f.phase f.key = f.failed ∧ o' = { o with log := o.log ++ [f] } := by
  obtain ⟨state, w, rfl, hfailed, rfl⟩ := h
  rw [recording_phase] at hfailed ⊢
  have hf : fails f.phase f.key = f.failed := by
    rw [← hfailed]
    cases fails f.phase f.key <;> rfl
  exact ⟨hf, by rw [hf]⟩

theorem recording_turns {phase : Phase} {key : Key} {state state' : σ}
    (h : (recording settings codec fails keyOf).Turns phase key state state') : state' = state := by
  obtain ⟨w, after, hrun, rfl⟩ := h
  rw [recording_phase] at hrun
  have hafter : some state = after := congrArg Prod.fst hrun
  rw [← hafter, Option.getD_some]

theorem recording_logs : (recording settings codec fails keyOf).Logs Journal.log where
  fires f o o' h := by rw [(recording_fires h).2]
  prepares o o' h := by cases h <;> rfl

theorem recording_discreet : (recording settings codec fails keyOf).Discreet where
  callback := Lifecycle.aside_around fun _ _ _ w => ⟨rfl, rfl, Int.le_refl w.now.nanos, id⟩
  instantiate _ _ w := .refl w
  lock w := .refl w
  freshKey w := ⟨rfl, rfl, Int.le_refl w.now.nanos, id⟩

end Surroundings

/-! ## A small cache -/

/-- `true` and `false` as JSON. -/
def Codec.flag : Codec Bool where
  encode b := .ok (.bool b)
  decode
    | .bool b => some b
    | _ => none

/-- Surroundings of a cache with `maxSize := 1`. -/
def Surroundings.small (fails : Phase → Key → Bool) : Surroundings Bool Bool Journal :=
  .recording { maxSize := 1 } .flag fails .ofNat

/-- A store in memory without records, with the given `fault`. -/
def Store.empty (fault : Nat → StoreCall → Option StoreError) : Store where
  backend := .memory {}
  precedes a b := decide (a < b)
  fault := fault

/-- A cache in `Surroundings.small`, opened over `Store.empty fault`. -/
def Traffic.small (fails : Phase → Key → Bool) (fault : Nat → StoreCall → Option StoreError) :
    Traffic Bool Bool Journal :=
  .opened (.small fails) (.empty fault) ⟨0⟩ {}

/-! ## Requests one after the other -/

section

variable {ι ω : Type} {s : Surroundings σ ι ω} {t t' : Traffic σ ι ω}
  {events : List (Traffic.Event σ ι)}

/-- `w` with one more unit of room in `Cache.occupied`. -/
def World.taken (w : World σ ω) : World σ ω :=
  { w with cache := { w.cache with occupied := w.cache.occupied + 1 } }

theorem exec_look_of_room {w : World σ ω} (h : w.cache.occupied < s.settings.maxSize)
    (deadline : Deadline) : exec (Op.look s deadline) w = (.ok .taken, w.taken) := by
  rw [Op.look, exec_bind_ok (Op.exec_cache w)]
  simp only [h, if_true]
  rfl

/-- `create args` where there is a unit of room: three steps, and the answer of `Op.introduce`. -/
theorem Run.thenCreate (h : Run s t events t') (args : ι)
    (hroom : t'.world.cache.occupied < s.settings.maxSize)
    (hk : (s.freshKey.run t'.world.taken).1 ∉ t'.known) :
    Run s t
      (events ++ [.quiet] ++ [.quiet] ++
        [.answered (.create args) ((exec (Op.introduce s args) t'.world.taken).1.map .created)])
      ((t'.moved (exec (Op.introduce s args) t'.world.taken).2).met
        (s.freshKey.run t'.world.taken).1) := by
  let deadline := Deadline.ofSettings s.settings t'.world.now
  have hlook : Step s { t' with tasks := .creating args deadline ::ₘ t'.tasks } .quiet
      { t'.moved t'.world.taken with tasks := .introducing args ::ₘ t'.tasks } :=
    .look (t := { t' with tasks := .creating args deadline ::ₘ t'.tasks }) rfl rfl
      (exec_look_of_room hroom deadline)
  have hintroduce : Step s { t'.moved t'.world.taken with tasks := .introducing args ::ₘ t'.tasks }
      (.answered (.create args) ((exec (Op.introduce s args) t'.world.taken).1.map .created))
      ((t'.moved (exec (Op.introduce s args) t'.world.taken).2).met
        (s.freshKey.run t'.world.taken).1) :=
    .introduce (t := { t'.moved t'.world.taken with tasks := .introducing args ::ₘ t'.tasks }) rfl hk
      rfl
  exact ((h.snoc (.create args)).snoc hlook).snoc hintroduce

/-- `get key` of a key with a record and no slot, where there is a unit of room: three steps, and
the answer of `Op.settle` and `Op.checkOut`. -/
theorem Run.thenFetch (h : Run s t events t') (key : Key)
    (hlinked : t'.world.cache.isLinked key = false)
    (hannounce : (exec (Op.announce key) t'.world).1 = .ok ())
    (hroom : (exec (Op.announce key) t'.world).2.cache.occupied < s.settings.maxSize) :
    Run s t
      (events ++ [.quiet] ++ [.quiet] ++
        [.answered (.get key) ((exec (do Op.settle s key; Op.checkOut s key)
          (exec (Op.announce key) t'.world).2.taken).1.map .checkedOut)])
      (((t'.moved (exec (do Op.settle s key; Op.checkOut s key)
          (exec (Op.announce key) t'.world).2.taken).2).met key).handed key
        (exec (do Op.settle s key; Op.checkOut s key)
          (exec (Op.announce key) t'.world).2.taken).1) := by
  rcases hw : exec (Op.announce key) t'.world with ⟨r, w⟩
  rw [hw] at hannounce hroom
  obtain rfl := hannounce
  let deadline := Deadline.ofSettings s.settings w.now
  have hlook : Step s { (t'.moved w).met key with tasks := .fetching key deadline ::ₘ t'.tasks } .quiet
      { (t'.moved w.taken).met key with tasks := .settling key ::ₘ t'.tasks } :=
    .look (t := { (t'.moved w).met key with tasks := .fetching key deadline ::ₘ t'.tasks }) rfl rfl
      (exec_look_of_room hroom deadline)
  exact ((h.snoc (.fetch (fun hl => nomatch hlinked.symm.trans hl) hw)).snoc hlook).snoc
    (.settle (t := { (t'.moved w.taken).met key with tasks := .settling key ::ₘ t'.tasks }) rfl rfl)

/-- `get key` of a key with a slot is one step. -/
theorem Step.asked {key : Key} (hlinked : t.Linked key) :
    Step s t (.answered (.get key) ((exec (Op.get s key) t.world).1.map .checkedOut))
      (((t.moved (exec (Op.get s key) t.world).2).met key).handed key
        (exec (Op.get s key) t.world).1) := .get hlinked rfl

theorem Run.thenGet (h : Run s t events t') (key : Key) (hlinked : t'.Linked key) :
    Run s t
      (events ++ [.answered (.get key) ((exec (Op.get s key) t'.world).1.map .checkedOut)])
      (((t'.moved (exec (Op.get s key) t'.world).2).met key).handed key
        (exec (Op.get s key) t'.world).1) := h.snoc (.asked hlinked)

/-- `finish key state` is one step. -/
theorem Step.givenBack {key : Key} {state : σ} (rest : Multiset (Key × σ))
    (h : t.handles = (key, state) ::ₘ rest) :
    Step s t (.answered (.finish key state)
        ((exec (Op.finish s key state) t.world).1.map fun _ => .done))
      { t.moved (exec (Op.finish s key state) t.world).2 with handles := rest } :=
  .finish h rfl

/-- A `Plain` request is one step. -/
theorem Run.thenServe (h : Run s t events t') (request : Request σ ι) (hq : request.Plain t') :
    Run s t (events ++ [.answered request (exec (request.perform s) t'.world).1])
      { t'.moved (exec (request.perform s) t'.world).2 with
        known := { key | key ∈ t'.known ∨ request.key? = some key } } :=
  h.snoc (.serve hq rfl)

end

end SessionCache
