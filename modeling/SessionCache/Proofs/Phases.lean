import SessionCache.Proofs.Traffic.Exchange
import SessionCache.Proofs.Traffic.Firing

/-!
# A phase as one chain

In every phase `before` of each interceptor, the callback of the bean and `after` of each interceptor
run as one sequence, up to the first that fails. Each starts from the `Frame` that the one before it
left.

* `Member.effect`, `Member.failure?`: one member. `effects`: several, one after the other.
* `Ran`: which members of a sequence run, and why the last of them failed.
* `Lifecycle.sequence`: the sequence of a phase, in which the callback of the bean is left out if it
  wants a state and `before` of some interceptor has emptied the field `state` of the context.
* `Interceptor.Steady`: an interceptor that leaves the fields of the context. Among such interceptors
  each member is shown the key, the phase and the state of the session (`Lifecycle.effects_steady`),
  and no operation of a cache shows them a state while the session is in the store
  (`Lifecycle.alike_withheld`).
* `Lifecycle.in_order`: what firing a phase does.
* `Lifecycle.in_order_emptied`: a phase without the callback of the bean.
-/

namespace SessionCache

variable {σ ι ω : Type} {phase : Phase} {key : Key} {state : Option σ}

/-! ## Members in order -/

section Order

variable {m : Member σ ω} {ms ran : List (Member σ ω)} {p : Frame σ × World σ ω}
  {failure : Option String}

/-- The frame and the world after `m`, whether it fails or not. -/
def Member.effect (m : Member σ ω) (p : Frame σ × World σ ω) : Frame σ × World σ ω :=
  let ((after, _), w) := (m p.1).run p.2
  (after, w)

/-- The message with which `m` fails on `p`, if it does. -/
def Member.failure? (m : Member σ ω) (p : Frame σ × World σ ω) : Option String :=
  ((m p.1).run p.2).1.2

theorem Member.run_eq (m : Member σ ω) (p : Frame σ × World σ ω) :
    (m p.1).run p.2 = (((m.effect p).1, m.failure? p), (m.effect p).2) := rfl

/-- `Member.effect` of each of `ms`, in order. -/
def effects (ms : List (Member σ ω)) (p : Frame σ × World σ ω) : Frame σ × World σ ω :=
  ms.foldl (fun p m => m.effect p) p

theorem effects_cons (m : Member σ ω) (ms : List (Member σ ω)) (p : Frame σ × World σ ω) :
    effects (m :: ms) p = effects ms (m.effect p) := rfl

/-- Each of `ms` passes on what those before it leave. -/
def Unfailing (ms : List (Member σ ω)) (p : Frame σ × World σ ω) : Prop :=
  ∀ ran m rest, ms = ran ++ m :: rest → m.failure? (effects ran p) = none

/-- Of `ms`, the first few ran, up to the one that failed. -/
inductive Ran (ms : List (Member σ ω)) (p : Frame σ × World σ ω) :
    List (Member σ ω) → Option String → Prop where
  /-- None failed, and all ran. -/
  | through (h : Unfailing ms p) : Ran ms p ms none
  /-- `m` failed with `message`; those before it passed, and `rest` did not run. -/
  | stopped {ran rest : List (Member σ ω)} {m : Member σ ω} {message : String}
      (hms : ms = ran ++ m :: rest) (hran : Unfailing ran p)
      (hm : m.failure? (effects ran p) = some message) : Ran ms p (ran ++ [m]) (some message)

theorem unfailing_nil : Unfailing [] p := fun _ _ _ h =>
  absurd h.symm (List.append_ne_nil_of_right_ne_nil _ (List.cons_ne_nil _ _))

theorem Unfailing.cons (hm : m.failure? p = none) (h : Unfailing ms (m.effect p)) :
    Unfailing (m :: ms) p := by
  intro ran d rest hms
  cases ran with
  | nil =>
    obtain ⟨rfl, -⟩ := List.cons.inj hms
    exact hm
  | cons first ran =>
    obtain ⟨rfl, hrest⟩ := List.cons.inj hms
    exact h ran d rest hrest

theorem Ran.cons (hm : m.failure? p = none) (h : Ran ms (m.effect p) ran failure) :
    Ran (m :: ms) p (m :: ran) failure := by
  cases h with
  | through h => exact .through (h.cons hm)
  | stopped hms hran hd => exact .stopped (congrArg (m :: ·) hms) (hran.cons hm) hd

/-- `failure = none` if and only if all of `ms` pass. -/
theorem Ran.eq_none_iff (h : Ran ms p ran failure) : failure = none ↔ Unfailing ms p := by
  cases h with
  | through h => exact iff_of_true rfl h
  | stopped hms _ hm => exact iff_of_false nofun fun h => nomatch hm.symm.trans (h _ _ _ hms)

/-- `runChain` of `m :: ms`: the failure of `m`, or `runChain` of `ms` on its effect. -/
theorem run_runChain_effect (m : Member σ ω) (ms : List (Member σ ω)) (p : Frame σ × World σ ω) :
    (runChain (m :: ms) p.1).run p.2 =
      match m.failure? p with
      | some message => (((m.effect p).1, some message), (m.effect p).2)
      | none => (runChain ms (m.effect p).1).run (m.effect p).2 := by
  rw [run_runChain_cons, m.run_eq]
  cases m.failure? p <;> rfl

/-- `runChain` runs members in order, up to and including the first that fails. -/
theorem exists_ran (ms : List (Member σ ω)) (p : Frame σ × World σ ω) :
    ∃ ran failure, Ran ms p ran failure ∧
      (runChain ms p.1).run p.2 = (((effects ran p).1, failure), (effects ran p).2) := by
  induction ms generalizing p with
  | nil => exact ⟨[], none, .through unfailing_nil, rfl⟩
  | cons m ms ih =>
    rw [run_runChain_effect]
    cases hm : m.failure? p with
    | none =>
      obtain ⟨ran, failure, hran, hchain⟩ := ih (m.effect p)
      exact ⟨m :: ran, failure, hran.cons hm, hchain⟩
    | some message => exact ⟨[] ++ [m], some message, .stopped rfl unfailing_nil hm, rfl⟩

/-- A property of frames that every member keeps. -/
theorem effects_induction {P : Frame σ → Prop}
    (hms : ∀ m ∈ ms, ∀ p : Frame σ × World σ ω, P p.1 → P (m.effect p).1) (h : P p.1) :
    P (effects ms p).1 := by
  induction ms generalizing p with
  | nil => exact h
  | cons m ms ih =>
    exact ih (fun m hm => hms m (List.mem_cons_of_mem _ hm)) (hms m List.mem_cons_self p h)

/-- Two chains agree if their members agree on every frame with a property `P` that the members
keep. -/
theorem runChain_congr {P : Frame σ → Prop} {ms' : List (Member σ ω)}
    (hsame : List.Forall₂ (fun m m' => ∀ frame, P frame → m' frame = m frame) ms ms')
    (hms : ∀ m ∈ ms, ∀ p : Frame σ × World σ ω, P p.1 → P (m.effect p).1) (h : P p.1) :
    (runChain ms' p.1).run p.2 = (runChain ms p.1).run p.2 := by
  induction hsame generalizing p with
  | nil => rfl
  | @cons m m' ms ms' hm _ ih =>
    have hrun : (m' p.1).run p.2 = (m p.1).run p.2 := by rw [hm p.1 h]
    have heffect : m'.effect p = m.effect p := by rw [Member.effect, hrun, Member.effect]
    have hfailure : m'.failure? p = m.failure? p := by rw [Member.failure?, hrun, Member.failure?]
    rw [run_runChain_effect, run_runChain_effect, heffect, hfailure,
      ih (fun m hm => hms m (List.mem_cons_of_mem _ hm)) (hms m List.mem_cons_self p h)]

end Order

/-! ## The members of a phase -/

namespace Lifecycle

variable {l : Lifecycle σ ι ω}

/-- The members that `Lifecycle.fire` runs for `phase`: the `before` of every interceptor, the bean,
and every `after`, in reverse. The bean is missing if `phase` shows a state and the `before`s leave
none in the context. -/
def sequence (l : Lifecycle σ ι ω) (phase : Phase) (key : Key) (p : Frame σ × World σ ω) :
    List (Member σ ω) :=
  l.interceptors.map (·.before.member) ++
    (if calls phase (effects (l.interceptors.map (·.before.member)) p).1 then
      [l.bean.member phase key] else []) ++
    (l.interceptors.map (·.after.member)).reverse

/-- Whether the bean is called is decided by the `context.state` that the `before`s leave. -/
theorem run_beanMember (before after : List (Member σ ω)) (p : Frame σ × World σ ω) :
    (runChain (before ++ l.beanMember phase key :: after) p.1).run p.2 =
      (runChain (before ++ (if calls phase (effects before p).1 then [l.bean.member phase key] else []) ++
        after) p.1).run p.2 := by
  induction before generalizing p with
  | nil =>
    have hbean : (l.beanMember phase key p.1).run p.2 =
        if calls phase p.1 then (l.bean.member phase key p.1).run p.2 else ((p.1, none), p.2) := by
      rw [beanMember]
      split <;> rfl
    rw [List.nil_append, List.nil_append, run_runChain_cons, hbean]
    change _ = (runChain ((if calls phase p.1 then [_] else []) ++ after) p.1).run p.2
    cases calls phase p.1 with
    | true => simp only [if_true, List.singleton_append, run_runChain_cons]
    | false => simp only [Bool.false_eq_true, if_false, List.nil_append]
  | cons m before ih =>
    rw [List.cons_append, List.cons_append, List.cons_append, run_runChain_effect, run_runChain_effect,
      ih, effects_cons]

theorem run_members (l : Lifecycle σ ι ω) (phase : Phase) (key : Key) (p : Frame σ × World σ ω) :
    (runChain (l.members phase key) p.1).run p.2 =
      (runChain (l.sequence phase key p) p.1).run p.2 := by
  rw [members, run_beanMember, sequence, List.map_reverse]

end Lifecycle

/-! ## Interceptors that leave the context -/

/-- `h` leaves the fields of `PhaseContext`. It may change the state itself. -/
def Hook.Steady (h : Hook σ ω) : Prop :=
  ∀ context w, let left := ((h context).run w).1.1
    left.key = context.key ∧ left.phase = context.phase ∧ left.field = .kept

theorem Hook.steady_idle : (Hook.idle : Hook σ ω).Steady := fun _ _ => ⟨rfl, rfl, rfl⟩

theorem Callback.steady_hook (c : Callback σ ω) : c.hook.Steady := fun _ _ => ⟨rfl, rfl, rfl⟩

/-- Both methods are `Steady`. -/
structure Interceptor.Steady (i : Interceptor σ ω) : Prop where
  before : i.before.Steady
  after : i.after.Steady

/-- `frame.context` has the `phase` and `key` that were fired, and a state if and only if `state` is
one. -/
structure Frame.AsFired (phase : Phase) (key : Key) (state : Option σ) (frame : Frame σ) : Prop where
  eq_start : frame = .start phase key frame.own
  own : frame.own = none ↔ state = none

namespace Frame.AsFired

variable {frame : Frame σ}

theorem start (phase : Phase) (key : Key) (state : Option σ) :
    (Frame.start phase key state).AsFired phase key state := ⟨rfl, .rfl⟩

theorem write (h : frame.AsFired phase key state) (written : Option σ) :
    (frame.write written).AsFired phase key state := by
  obtain ⟨heq, hown⟩ := h
  rw [heq]
  exact ⟨rfl, Option.map_eq_none_iff.trans hown⟩

theorem hook {h : Hook σ ω} (hh : h.Steady) (p : Frame σ × World σ ω)
    (hp : p.1.AsFired phase key state) : (h.member.effect p).1.AsFired phase key state := by
  obtain ⟨hkey, hphase, hfield⟩ := hh p.1.context p.2
  have hleave : (h.member.effect p).1 = p.1.leave ((h p.1.context).run p.2).1.1 := rfl
  have hwrite : (h.member.effect p).1 = p.1.write ((h p.1.context).run p.2).1.1.written := by
    rw [hleave, Frame.leave, hkey, hphase, hfield]
    exact Frame.leave_fields _ _
  rw [hwrite]
  exact hp.write _

theorem bean (b : Bean σ ι ω) (p : Frame σ × World σ ω) (hp : p.1.AsFired phase key state) :
    ((b.member phase key).effect p).1.AsFired phase key state := by
  cases hstored : phase.isStored with
  | true =>
    have heffect : ((b.member phase key).effect p).1 = p.1 := by
      simp only [Member.effect, Bean.member, hstored, if_true]
      rfl
    rwa [heffect]
  | false =>
    have heffect : ((b.member phase key).effect p).1 =
        p.1.write ((b.callback phase key p.1.state).run p.2).1.1 := by
      simp only [Member.effect, Bean.member, hstored, Bool.false_eq_true, if_false]
      rfl
    rw [heffect]
    exact hp.write _

end Frame.AsFired

namespace Lifecycle

variable {l : Lifecycle σ ι ω}

/-- Every interceptor is `Steady`. -/
def Steady (l : Lifecycle σ ι ω) : Prop := ∀ i ∈ l.interceptors, i.Steady

/-- A member keeps `AsFired`. -/
theorem Steady.asFired_member (hl : l.Steady) {m : Member σ ω}
    (hm : m ∈ l.members phase key ∨ m = l.bean.member phase key) (p : Frame σ × World σ ω)
    (hp : p.1.AsFired phase key state) : (m.effect p).1.AsFired phase key state := by
  obtain hm | rfl := hm
  · rw [members, List.mem_append, List.mem_cons, List.mem_map, List.mem_map] at hm
    obtain ⟨i, hi, rfl⟩ | rfl | ⟨i, hi, rfl⟩ := hm
    · exact .hook (hl i hi).before p hp
    · by_cases hcalls : calls phase p.1
      · have heffect : (l.beanMember phase key).effect p = (l.bean.member phase key).effect p := by
          rw [Member.effect, beanMember, if_pos hcalls, Member.effect]
        rw [heffect]
        exact .bean l.bean p hp
      · have heffect : (l.beanMember phase key).effect p = p := by
          rw [Member.effect, beanMember, if_neg hcalls]
          rfl
        rwa [heffect]
    · exact .hook (hl i (List.mem_reverse.mp hi)).after p hp
  · exact .bean l.bean p hp

theorem mem_sequence {p : Frame σ × World σ ω} {m : Member σ ω} (hm : m ∈ l.sequence phase key p) :
    m ∈ l.members phase key ∨ m = l.bean.member phase key := by
  rw [sequence, List.mem_append, List.mem_append] at hm
  obtain (hm | hm) | hm := hm
  · exact .inl (List.mem_append_left _ hm)
  · split at hm
    · exact .inr (List.mem_singleton.mp hm)
    · cases hm
  · rw [← List.map_reverse] at hm
    exact .inl (List.mem_append_right _ (List.mem_cons_of_mem _ hm))

/-- With `Steady` interceptors every member is shown the phase and the key that were fired, and the
state as the members before it left it. -/
theorem Steady.effects (hl : l.Steady) (w : World σ ω) {ran : List (Member σ ω)}
    (hran : ran <+: l.sequence phase key (.start phase key state, w)) :
    (effects ran (.start phase key state, w)).1.AsFired phase key state :=
  effects_induction (P := Frame.AsFired phase key state)
    (fun _ hm p hp => hl.asFired_member (mem_sequence (hran.subset hm)) p hp) (.start phase key state)

/-- With `Steady` interceptors the bean is called if and only if `phase.isStored ||
state.isSome`. -/
theorem Steady.sequence (hl : l.Steady) (w : World σ ω) :
    l.sequence phase key (.start phase key state, w) =
      l.interceptors.map (·.before.member) ++
        (if phase.isStored || state.isSome then [l.bean.member phase key] else []) ++
        (l.interceptors.map (·.after.member)).reverse := by
  have hfired : (SessionCache.effects (l.interceptors.map (·.before.member))
      (.start phase key state, w)).1.AsFired phase key state :=
    hl.effects w ((List.prefix_append _ _).trans (List.prefix_append _ _))
  have hcalls : calls phase (SessionCache.effects (l.interceptors.map (·.before.member))
      (.start phase key state, w)).1 = (phase.isStored || state.isSome) := by
    have hsome := Option.isSome_eq_isSome.mpr hfired.own
    rw [calls, hfired.eq_start]
    exact congrArg (phase.isStored || ·) hsome
  rw [Lifecycle.sequence, hcalls]

end Lifecycle

/-! ## Without a state -/

/-- `c`, with `none` for the state in the phases of a stored session. -/
def Callback.withheld (c : Callback σ ω) : Callback σ ω := fun phase key state =>
  if phase.isStored then c phase key none else c phase key state

/-- `h`, with `none` for the state in the phases of a stored session. -/
def Hook.withheld (h : Hook σ ω) : Hook σ ω := fun context =>
  if context.phase.isStored then h { context with state := none } else h context

/-- Both methods `withheld`. -/
def Interceptor.withheld (i : Interceptor σ ω) : Interceptor σ ω where
  before := i.before.withheld
  after := i.after.withheld

/-- The bean and every interceptor `withheld`. -/
def Lifecycle.withheld (l : Lifecycle σ ι ω) : Lifecycle σ ι ω where
  bean := { l.bean with callback := l.bean.callback.withheld }
  interceptors := l.interceptors.map (·.withheld)

/-- `withheld` changes nothing where there is no state. -/
theorem Hook.member_withheld (h : Hook σ ω) {frame : Frame σ} (hf : frame.AsFired phase key state)
    (hstate : phase.isStored = true → state = none) :
    h.withheld.member frame = h.member frame := by
  have hcontext : h.withheld frame.context = h frame.context := by
    rw [hf.eq_start, Hook.withheld]
    split
    · next hstored => rw [hf.own.mpr (hstate hstored)]; rfl
    · rfl
  rw [member, hcontext, member]

namespace Lifecycle

variable {l : Lifecycle σ ι ω}

@[simp] theorem beanMember_withheld (l : Lifecycle σ ι ω) (phase : Phase) (key : Key) :
    l.withheld.beanMember phase key = l.beanMember phase key := by
  have hbean : l.withheld.bean.member phase key = l.bean.member phase key := by
    funext frame
    rw [Bean.member, Bean.member]
    cases hstored : phase.isStored with
    | true => simp only [if_true, withheld, Callback.withheld, hstored]
    | false => simp only [Bool.false_eq_true, if_false, withheld, Callback.withheld, hstored]
  funext frame
  rw [beanMember, beanMember, hbean]

theorem members_withheld (l : Lifecycle σ ι ω) (phase : Phase) (key : Key) :
    l.withheld.members phase key = l.interceptors.map (·.before.withheld.member) ++
      l.beanMember phase key :: l.interceptors.reverse.map (·.after.withheld.member) := by
  rw [members, beanMember_withheld, withheld, ← List.map_reverse, List.map_map, List.map_map]
  rfl

/-- With `Steady` interceptors, `Lifecycle.fire` of `l.withheld` is that of `l`: in the phases of a
stored session no member sees a state. -/
theorem Steady.alike_withheld (hl : l.Steady) : l.Alike l.withheld where
  instantiate := rfl
  fire phase key state hstate := by
    have hsame : List.Forall₂ (fun m m' : Member σ ω => ∀ frame, frame.AsFired phase key state →
        m' frame = m frame) (l.members phase key) (l.withheld.members phase key) := by
      rw [members_withheld, members]
      refine List.rel_append ?_ (.cons (fun _ _ => rfl) ?_) <;>
      · refine List.forall₂_map_left_iff.mpr (List.forall₂_map_right_iff.mpr
          (List.forall₂_same.mpr fun i _ frame hf => ?_))
        exact Hook.member_withheld _ hf hstate
    have hphase : l.withheld.runPhase phase key state = l.runPhase phase key state := by
      funext w
      have hchain := runChain_congr (p := (.start phase key state, w)) hsame
        (fun _ hm p hp => hl.asFired_member (.inl hm) p hp) (.start phase key state)
      rw [runPhase, runPhase]
      exact congrArg (fun r => ((r.1.1.own, r.1.2), r.2)) hchain
    rw [fire, fire, hphase]

end Lifecycle

/-! ## Firing a phase -/

/-- `Lifecycle.fire` runs the members of `Lifecycle.sequence` in order, up to and including the
first that fails, each on the frame that the one before it left. It fails exactly if one of them
does, with its message and with the phase and the key that were fired. Where the interceptors leave
the fields of the context, the bean is one of them if the phase has no state to show or there is
one, and the members are shown what was fired. -/
theorem Lifecycle.in_order (l : Lifecycle σ ι ω) (phase : Phase) (key : Key) (state : Option σ)
    (w : World σ ω) :
    (∃ ran failure, Ran (l.sequence phase key (.start phase key state, w))
        (.start phase key state, w) ran failure ∧
      (failure = none ↔ Unfailing (l.sequence phase key (.start phase key state, w))
        (.start phase key state, w)) ∧
      (l.runPhase phase key state).run w =
        (((effects ran (.start phase key state, w)).1.own, failure),
          (effects ran (.start phase key state, w)).2) ∧
      exec (l.fire phase key state) w =
        (match failure with
          | none => .ok (effects ran (.start phase key state, w)).1.own
          | some message => .error (.lifecycle key phase message),
        (effects ran (.start phase key state, w)).2)) ∧
    (l.Steady →
      l.sequence phase key (.start phase key state, w) =
        l.interceptors.map (·.before.member) ++
          (if phase.isStored || state.isSome then [l.bean.member phase key] else []) ++
          (l.interceptors.map (·.after.member)).reverse ∧
      (∀ ran, ran <+: l.sequence phase key (.start phase key state, w) →
        (effects ran (.start phase key state, w)).1.AsFired phase key state) ∧
      ∀ (s : Surroundings σ ι ω) (request : Request σ ι),
        request.perform { s with lifecycle := l.withheld } =
          request.perform { s with lifecycle := l }) := by
  refine ⟨?_, fun hl => ⟨hl.sequence w, fun ran => hl.effects w, fun s request => ?_⟩⟩
  · obtain ⟨ran, failure, hran, hchain⟩ :=
      exists_ran (l.sequence phase key (.start phase key state, w)) (.start phase key state, w)
    rw [← run_members] at hchain
    have hphase : (l.runPhase phase key state).run w =
        (((effects ran (.start phase key state, w)).1.own, failure),
          (effects ran (.start phase key state, w)).2) := by
      rw [run_runPhase, hchain]
    refine ⟨ran, failure, hran, hran.eq_none_iff, hphase, ?_⟩
    rw [fire, exec_bind_ok (exec_lift _ _), hphase]
    cases failure <;> rfl
  · exact Request.perform_exchanged (s := { s with lifecycle := l }) hl.alike_withheld request
      fun _ => rfl

/-- An interceptor that negates the state, around a bean that refuses `true`. -/
def Lifecycle.flipping : Lifecycle Bool Unit Unit where
  bean := {
    instantiate := fun _ _ => pure (.ok false)
    callback := fun _ _ state => pure (state, if state = some true then some "refused" else none) }
  interceptors := [{ before := Callback.hook fun _ _ state => pure (state.map not, none) }]

/-- An empty cache with `maxSize := 1`. -/
def World.bare : World Bool Unit where
  cache := {}
  store := { backend := .memory {}, precedes := fun _ _ => false }
  now := ⟨0⟩
  outside := ()

/-- The bean is called with `true` for the state `false`, and refuses it. -/
theorem Lifecycle.in_order_of_flipping :
    flipping.Steady ∧
      (flipping.sequence .preInvoke (.ofNat 7)
        (.start .preInvoke (.ofNat 7) (some false), .bare)).length = 3 ∧
      exec (flipping.fire .preInvoke (.ofNat 7) (some false)) .bare =
        (.error (.lifecycle (.ofNat 7) .preInvoke "refused"), .bare) := by
  have hl : flipping.Steady :=
    List.forall_mem_singleton.mpr ⟨Callback.steady_hook _, Hook.steady_idle⟩
  have hsequence := ((in_order flipping .preInvoke (.ofNat 7) (some false) .bare).2 hl).1
  exact ⟨hl, congrArg List.length hsequence, rfl⟩

/-- An interceptor whose `before` sets `context.state` to `none`, around a bean that refuses every
state. -/
def Lifecycle.emptying : Lifecycle Bool Unit Unit where
  bean := {
    instantiate := fun _ _ => pure (.ok true)
    callback := fun _ _ state => pure (state, some "refused") }
  interceptors := [{
    before := fun context =>
      pure ({ key := context.key, phase := context.phase, field := .emptied }, none) }]

/-- `.preInvoke` of `emptying` passes, and the state stays: the bean, which would have refused it,
is not called. -/
theorem Lifecycle.in_order_emptied :
    exec (emptying.fire .preInvoke (.ofNat 7) (some true)) .bare = (.ok (some true), .bare) ∧
      (emptying.bean.member .preInvoke (.ofNat 7)).failure?
        (.start .preInvoke (.ofNat 7) (some true), .bare) = some "refused" := ⟨rfl, rfl⟩

end SessionCache
