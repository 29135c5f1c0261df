import SessionCache.Proofs.Traffic.Basic

/-!
# Runs of callbacks

A `Firing` is one run of the callbacks of a phase for a key, and whether one of them failed. What
the callbacks see and do is their own affair; all that is kept of a firing is how it changed what
is outside (`Surroundings.Fires`) and the state of the session (`Surroundings.Turns`).

* `Surroundings.Story`: firings one after the other, and between them anything that new keys and
  first states take from outside.
* `Surroundings.Logs`: what is outside keeps a list of the firings.
* `exec_fire`, `exec_construct`: the two operations that run callbacks or make states.
-/

namespace SessionCache

variable {σ ι ω : Type} {s : Surroundings σ ι ω}

/-- The callbacks of `phase` ran for `key`, and one of them failed if `failed`. -/
structure Firing where
  phase : Phase
  key : Key
  failed : Bool
  deriving DecidableEq

namespace Surroundings

/-- The callbacks of `f`, run in some world with `o` outside, leave `o'` outside and fail exactly if
`f.failed`. -/
def Fires (s : Surroundings σ ι ω) (f : Firing) (o o' : ω) : Prop :=
  ∃ (state : Option σ) (w : World σ ω), w.outside = o ∧
    ((s.lifecycle.runPhase f.phase f.key state).run w).1.2.isSome = f.failed ∧
    ((s.lifecycle.runPhase f.phase f.key state).run w).2.outside = o'

/-- The callbacks of `phase`, run in some world for `key` with `state`, succeed and leave
`state'`. -/
def Turns (s : Surroundings σ ι ω) (phase : Phase) (key : Key) (state state' : σ) : Prop :=
  ∃ (w : World σ ω) (after : Option σ),
    ((s.lifecycle.runPhase phase key (some state)).run w).1 = (after, none) ∧
      after.getD state = state'

/-- `Bean.instantiate key args`, run in some world, gives `state`. -/
def Makes (s : Surroundings σ ι ω) (key : Key) (args : ι) (state : σ) : Prop :=
  ∃ w, ((s.lifecycle.bean.instantiate key args).run w).1 = .ok state

/-- `Bean.instantiate key args`, run in some world, fails. -/
def Declines (s : Surroundings σ ι ω) (key : Key) (args : ι) : Prop :=
  ∃ w message, ((s.lifecycle.bean.instantiate key args).run w).1 = .error message

/-- What is outside before and after a call of `freshKey`, or of `instantiate`. -/
inductive Prepares (s : Surroundings σ ι ω) : ω → ω → Prop where
  | freshKey (w : World σ ω) : Prepares s w.outside (s.freshKey.run w).2.outside
  | instantiate (key : Key) (args : ι) (w : World σ ω) :
      Prepares s w.outside ((s.lifecycle.bean.instantiate key args).run w).2.outside

/-- The firings of a list in order, from what is outside before them to what is outside after them,
with calls of `Prepares` in between. -/
inductive Story (s : Surroundings σ ι ω) : List Firing → ω → ω → Prop where
  | nil {o : ω} : Story s [] o o
  | fire {f : Firing} {fs : List Firing} {o o' o'' : ω} (h : s.Fires f o o') (h' : Story s fs o' o'') :
      Story s (f :: fs) o o''
  | prepare {fs : List Firing} {o o' o'' : ω} (h : s.Prepares o o') (h' : Story s fs o' o'') :
      Story s fs o o''

theorem Story.one {f : Firing} {o o' : ω} (h : s.Fires f o o') : s.Story [f] o o' := .fire h .nil

theorem Story.two {f f' : Firing} {o o' o'' : ω} (h : s.Fires f o o') (h' : s.Fires f' o' o'') :
    s.Story [f, f'] o o'' := .fire h (.one h')

theorem Story.append {fs fs' : List Firing} {o o' o'' : ω} (h : s.Story fs o o')
    (h' : s.Story fs' o' o'') : s.Story (fs ++ fs') o o'' := by
  induction h with
  | nil => exact h'
  | fire hf _ ih => exact .fire hf (ih h')
  | prepare hp _ ih => exact .prepare hp (ih h')

/-- `log` reads a list of firings off what is outside, to which each firing adds itself and
`Prepares` adds nothing. -/
structure Logs (s : Surroundings σ ι ω) (log : ω → List Firing) : Prop where
  fires : ∀ f o o', s.Fires f o o' → log o' = log o ++ [f]
  prepares : ∀ o o', s.Prepares o o' → log o' = log o

theorem Story.log {log : ω → List Firing} (hlog : s.Logs log) {fs : List Firing} {o o' : ω}
    (h : s.Story fs o o') : log o' = log o ++ fs := by
  induction h with
  | nil => exact (List.append_nil _).symm
  | fire hf _ ih => rw [ih, hlog.fires _ _ _ hf, List.append_assoc, List.singleton_append]
  | prepare hp _ ih => rw [ih, hlog.prepares _ _ hp]

end Surroundings

theorem Aside.refl (w : World σ ω) : Aside w w :=
  ⟨rfl, rfl, Int.le_refl w.now.nanos, id⟩

theorem Aside.trans {w w' w'' : World σ ω} (h : Aside w w') (h' : Aside w' w'') : Aside w w'' :=
  ⟨h'.cache.trans h.cache, h'.store.trans h.store, Int.le_trans h.now h'.now,
    fun hc => h'.calendar (h.calendar hc)⟩

/-- A chain of members goes on after its first one unless that failed. -/
theorem run_runChain_cons (m : Member σ ω) (ms : List (Member σ ω)) (frame : Frame σ)
    (w : World σ ω) :
    (runChain (m :: ms) frame).run w =
      match (m frame).run w with
      | ((after, some message), w') => ((after, some message), w')
      | ((after, none), w') => (runChain ms after).run w' := by
  simp only [runChain, StateT.run_bind]
  rcases (m frame).run w with ⟨⟨after, _ | message⟩, w'⟩ <;> rfl

theorem Lifecycle.run_runPhase (l : Lifecycle σ ι ω) (phase : Phase) (key : Key) (state : Option σ)
    (w : World σ ω) :
    (l.runPhase phase key state).run w =
      let ((frame, failure), w') :=
        (runChain (l.members phase key) (.start phase key state)).run w
      ((frame.own, failure), w') := rfl

/-- A chain of members that leave the world `Aside` does so itself. -/
theorem aside_runChain {ms : List (Member σ ω)}
    (hms : ∀ m ∈ ms, ∀ frame w, Aside w ((m frame).run w).2) (frame : Frame σ) (w : World σ ω) :
    Aside w ((runChain ms frame).run w).2 := by
  induction ms generalizing frame w with
  | nil => exact .refl w
  | cons m ms ih =>
    have hm := hms m List.mem_cons_self frame w
    rw [run_runChain_cons]
    rcases h : (m frame).run w with ⟨⟨after, _ | message⟩, w'⟩ <;> rw [h] at hm
    · exact hm.trans (ih (fun m hm' => hms m (List.mem_cons_of_mem _ hm')) _ _)
    · exact hm

theorem aside_runPhase (hs : s.Discreet) (phase : Phase) (key : Key) (state : Option σ)
    (w : World σ ω) : Aside w ((s.lifecycle.runPhase phase key state).run w).2 :=
  aside_runChain (hs.callback phase key) _ w

/-- `Lifecycle.fire` leaves the world `Aside`. Either a member failed, and the error names the
`phase` and the `key`, or the state afterwards is one that the phase `Turns` the state into. -/
theorem exec_fire (hs : s.Discreet) {phase : Phase} {key : Key} {state : Option σ} {w w' : World σ ω}
    {r : Except CacheError (Option σ)} (h : exec (s.lifecycle.fire phase key state) w = (r, w')) :
    Aside w w' ∧
      ((∃ message, r = .error (.lifecycle key phase message) ∧
          s.Fires ⟨phase, key, true⟩ w.outside w'.outside) ∨
        ∃ after, r = .ok after ∧ s.Fires ⟨phase, key, false⟩ w.outside w'.outside ∧
          ∀ st, state = some st → s.Turns phase key st (after.getD st)) := by
  have haside : Aside w ((s.lifecycle.runPhase phase key state).run w).2 :=
    aside_runPhase hs phase key state w
  have hfires : ∀ b, ((s.lifecycle.runPhase phase key state).run w).1.2.isSome = b →
      s.Fires ⟨phase, key, b⟩ w.outside
        ((s.lifecycle.runPhase phase key state).run w).2.outside :=
    fun b hb => ⟨state, w, rfl, hb, rfl⟩
  rw [Lifecycle.fire, exec_bind, exec_lift] at h
  rcases hc : (s.lifecycle.runPhase phase key state).run w with ⟨⟨after, _ | message⟩, w₁⟩ <;>
    rw [hc] at h haside hfires <;> cases h
  · refine ⟨haside, .inr ⟨after, rfl, hfires false rfl, ?_⟩⟩
    rintro st rfl
    exact ⟨w, after, congrArg Prod.fst hc, rfl⟩
  · exact ⟨haside, .inl ⟨message, rfl, hfires true rfl⟩⟩

theorem exec_instantiate (hs : s.Discreet) {key : Key} {args : ι} {w w' : World σ ω}
    {r : Except CacheError σ} (h : exec (s.lifecycle.instantiate key args) w = (r, w')) :
    Aside w w' ∧ s.Prepares w.outside w'.outside ∧
      ((∃ state, r = .ok state ∧ s.Makes key args state) ∨
        ∃ message, r = .error (.lifecycle key .postConstruct message) ∧ s.Declines key args) := by
  have haside := hs.instantiate key args w
  have hprep : s.Prepares w.outside ((s.lifecycle.bean.instantiate key args).run w).2.outside :=
    .instantiate key args w
  rw [Lifecycle.instantiate, exec_bind, exec_lift] at h
  rcases hi : (s.lifecycle.bean.instantiate key args).run w with ⟨message | state, w₁⟩ <;>
    rw [hi] at h haside hprep <;> cases h
  · exact ⟨haside, hprep, .inr ⟨message, rfl, w, message, congrArg Prod.fst hi⟩⟩
  · exact ⟨haside, hprep, .inl ⟨state, rfl, w, congrArg Prod.fst hi⟩⟩

/-- `Op.construct` leaves the world `Aside`. It answers what `.postConstruct` makes of a state that
the bean `Makes`, or the failure of one of the two. -/
theorem exec_construct (hs : s.Discreet) {key : Key} {args : ι} {w w' : World σ ω}
    {r : Except CacheError σ} (h : exec (Op.construct s key args) w = (r, w')) :
    Aside w w' ∧
      ((∃ state state', r = .ok state' ∧ s.Makes key args state ∧
          s.Turns .postConstruct key state state' ∧
          s.Story [⟨.postConstruct, key, false⟩] w.outside w'.outside) ∨
        ∃ message, r = .error (.lifecycle key .postConstruct message) ∧
          (s.Declines key args ∧ s.Story [] w.outside w'.outside ∨
            s.Story [⟨.postConstruct, key, true⟩] w.outside w'.outside)) := by
  rw [Op.construct, exec_bind] at h
  rcases hi : exec (s.lifecycle.instantiate key args) w with ⟨r₁, w₁⟩
  obtain ⟨haside, hprep, ⟨state, rfl, hmakes⟩ | ⟨message, rfl, hdeclines⟩⟩ := exec_instantiate hs hi
  · rw [hi] at h
    dsimp only at h
    rw [exec_bind] at h
    rcases hf : exec (s.lifecycle.fire .postConstruct key (some state)) w₁ with ⟨r₂, w₂⟩
    obtain ⟨haside', ⟨message, rfl, hfires⟩ | ⟨after, rfl, hfires, hturns⟩⟩ := exec_fire hs hf
    · rw [hf] at h
      cases h
      exact ⟨haside.trans haside', .inr ⟨message, rfl, .inr (.prepare hprep (.one hfires))⟩⟩
    · rw [hf] at h
      cases h
      exact ⟨haside.trans haside', .inl ⟨state, after.getD state, rfl, hmakes, hturns state rfl,
        .prepare hprep (.one hfires)⟩⟩
  · rw [hi] at h
    cases h
    exact ⟨haside, .inr ⟨message, rfl, .inl ⟨hdeclines, .prepare hprep .nil⟩⟩⟩

end SessionCache
