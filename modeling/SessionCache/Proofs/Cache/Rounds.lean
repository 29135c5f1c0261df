import SessionCache.Cache.Sweeper

/-!
# The rounds of a sweeper

A sweeper goes round in a loop of its own: it waits for its deadline, ticks, and reads the clock for
the next deadline. Meanwhile anybody may ask it to stop. The request is a flag behind a lock, which the
sweeper has while it looks at the flag and at the clock, and neither while it sleeps nor while it
ticks.

* `Sweeper.Step`: what can happen to a sweeper and to its flag. It may wake at any time: at the
  deadline, before it, for no reason, or because it was asked to stop.
* `Sweeper.Run`: any number of steps, and when each of them happened.
* `Sweeper.Resting`: the time that the interval before a tick counts from.
* `Sweeper.Paced.step`, `Sweeper.Run.paced`: what a step, and so a run, keeps.
* `Sweeper.Run.pacing`: when a sweeper ticks, and when it does so no more.
-/

namespace SessionCache

namespace Instant

variable {t u : Instant} {d : Duration}

theorem after?_eq_some_iff : t.after? d = some u ↔ t.plus d ≤ horizon ∧ t.plus d = u := by
  simp [after?]

theorem after?_eq_none_iff : t.after? d = none ↔ ¬t.plus d ≤ horizon := by
  simp [after?]

theorem plus_mono (h : t ≤ u) (d : Duration) : t.plus d ≤ u.plus d :=
  Int.add_le_add_right h d.nanos

end Instant

namespace Sweeper

/-! ## Steps -/

/-- Where the thread is in its loop. -/
inductive Place where
  /-- It waits for `nextTick?` or a wake-up, and looks at the flag next. -/
  | waiting
  /-- It saw `stopped = false` with `nextTick?` reached: a tick comes next. -/
  | due
  | ticking
  /-- It has left the loop. -/
  | over
  deriving DecidableEq

/-- The observable events of the thread. -/
inductive Event where
  /-- `stopped` was set. -/
  | stopped
  /-- It looked at the flag, and saw `flag`. -/
  | looked (flag : Bool)
  /-- A tick began. -/
  | tick
  /-- The tick ended and answered `goOn`. -/
  | returned (goOn : Bool)
  deriving DecidableEq

/-- Whether the event is the beginning or the end of a tick. -/
def Event.isWork : Event → Bool
  | .tick | .returned _ => true
  | .stopped | .looked _ => false

/-- The events with their times, oldest first. -/
abbrev Log := List (Instant × Event)

/-- The state of the thread: its clock, its place and what it shares with who stops it. -/
structure Thread where
  sweeper : Sweeper
  place : Place
  now : Instant

namespace Thread

/-- The thread right after it computed its first deadline, `now + interval`. -/
def spawned (interval : Duration) (now : Instant) : Thread := ⟨start interval now, .waiting, now⟩

/-- The thread after a look at `stopped` and at the clock. -/
def look (t : Thread) : Thread :=
  match t.sweeper.wake t.now with
  | .sleep => t
  | .tick => { t with place := .due }
  | .quit => { t with sweeper := t.sweeper.quit, place := .over }

end Thread

/-- One step of the thread, or of who stops it, at the time `t.now`. -/
inductive Step : Thread → Event → Thread → Prop where
  | stop {t : Thread} : Step t .stopped { t with sweeper := t.sweeper.stop }
  | look {t : Thread} (h : t.place = .waiting) : Step t (.looked t.sweeper.stopped) t.look
  | tick {t : Thread} (h : t.place = .due) : Step t .tick { t with place := .ticking }
  /-- The next deadline is read at some `now` after the end of the tick. A stop that comes between
  the two is the same as one that comes after both. -/
  | returned {t : Thread} {goOn : Bool} (now : Instant) (h : t.place = .ticking) (hnow : t.now ≤ now) :
      Step t (.returned goOn)
        { sweeper := t.sweeper.ticked now goOn, place := if goOn then .waiting else .over, now }

/-- Any number of steps, with any time between them. -/
inductive Run : Thread → Log → Thread → Prop where
  | nil {t : Thread} : Run t [] t
  | snoc {t t' t'' : Thread} {log : Log} {event : Event} (h : Run t log t') (now : Instant)
      (hnow : t'.now ≤ now) (h' : Step { t' with now } event t'') : Run t (log ++ [(now, event)]) t''

/-! ## What a step keeps -/

/-- No tick is under way; the last one ended at that time with `goOn = true`, or there was none and
it is `started`. -/
inductive Resting (started : Instant) (log : Log) : Instant → Prop where
  | first (h : ∀ e ∈ log, e.2.isWork = false) : Resting started log started
  | again {earlier later : Log} {ended : Instant} (hlog : log = earlier ++ (ended, .returned true) :: later)
      (h : ∀ e ∈ later, e.2.isWork = false) : Resting started log ended

theorem Resting.concat {started since now : Instant} {log : Log} {event : Event}
    (h : Resting started log since) (hevent : event.isWork = false) :
    Resting started (log ++ [(now, event)]) since := by
  have hmem (later : Log) (hlater : ∀ e ∈ later, e.2.isWork = false) :
      ∀ e ∈ later ++ [(now, event)], e.2.isWork = false := by
    simpa [or_imp, forall_and, hevent] using hlater
  cases h with
  | first h => exact .first (hmem log h)
  | again hlog h => exact .again (by rw [hlog, List.append_assoc, List.cons_append]) (hmem _ h)

/-- While the thread waits, `nextTick?` is `now.after? interval` for a `now` at which it was
`Resting`. -/
structure Paced (interval : Duration) (started : Instant) (log : Log) (t : Thread) : Prop where
  interval_eq : t.sweeper.interval = interval
  started_le : started ≤ t.now
  finished_iff : t.sweeper.finished = true ↔ t.place = .over
  deadline_eq : t.place = .waiting ∨ t.place = .due → ∃ since now, Resting started log since ∧
    started ≤ since ∧ since ≤ now ∧ t.sweeper.deadline = now.after? interval
  isDue : t.place = .due → t.sweeper.isDue t.now = true

theorem isDue_iff {s : Sweeper} {now : Instant} :
    s.isDue now = true ↔ ∃ deadline, s.deadline = some deadline ∧ deadline ≤ now := by
  simp [isDue, Option.any_eq_true]

theorem wake_eq_quit_iff {s : Sweeper} {now : Instant} :
    s.wake now = .quit ↔ s.stopped = true ∨ s.finished = true := by
  unfold wake
  cases s.stopped <;> cases s.finished <;> cases s.isDue now <;> simp

/-- A look with `stopped` set leads to `.over`, whether or not the deadline has come. -/
theorem Thread.look_of_stopped {t : Thread} (h : t.sweeper.stopped = true) :
    t.look = { t with sweeper := t.sweeper.quit, place := .over } := by
  rw [look, wake_eq_quit_iff.mpr (.inl h)]

namespace Paced

variable {interval : Duration} {started now : Instant} {log : Log} {event : Event} {t t' : Thread}

theorem spawned (interval : Duration) (started : Instant) :
    Paced interval started [] (.spawned interval started) where
  interval_eq := rfl
  started_le := Int.le_refl _
  finished_iff := iff_of_false Bool.false_ne_true nofun
  deadline_eq _ := ⟨started, started, .first nofun, Int.le_refl _, Int.le_refl _, rfl⟩
  isDue := nofun

/-- `Paced` is kept when time passes. -/
theorem passed (h : Paced interval started log t) (hnow : t.now ≤ now) :
    Paced interval started log { t with now } where
  interval_eq := h.interval_eq
  started_le := Int.le_trans h.started_le hnow
  finished_iff := h.finished_iff
  deadline_eq := h.deadline_eq
  isDue hplace := by
    obtain ⟨deadline, hdeadline, hle⟩ := isDue_iff.mp (h.isDue hplace)
    exact isDue_iff.mpr ⟨deadline, hdeadline, Int.le_trans hle hnow⟩

/-- Before `.over`, `finished` is not set. -/
theorem not_finished (h : Paced interval started log t) (hplace : t.place ≠ .over) :
    ¬t.sweeper.finished = true :=
  fun hfinished => hplace (h.finished_iff.mp hfinished)

theorem concat (h : Paced interval started log t) (hevent : event.isWork = false) :
    Paced interval started (log ++ [(now, event)]) t where
  interval_eq := h.interval_eq
  started_le := h.started_le
  finished_iff := h.finished_iff
  deadline_eq hplace := by
    obtain ⟨since, set, hresting, h⟩ := h.deadline_eq hplace
    exact ⟨since, set, hresting.concat hevent, h⟩
  isDue := h.isDue

theorem stop (h : Paced interval started log t) :
    Paced interval started log { t with sweeper := t.sweeper.stop } :=
  ⟨h.interval_eq, h.started_le, h.finished_iff, h.deadline_eq, h.isDue⟩

theorem look (h : Paced interval started log t) (hplace : t.place = .waiting) :
    Paced interval started log t.look := by
  rw [Thread.look]
  split
  · exact h
  · next hwake =>
    have hfinished := h.not_finished (by rw [hplace]; nofun)
    exact {
      interval_eq := h.interval_eq
      started_le := h.started_le
      finished_iff := iff_of_false hfinished nofun
      deadline_eq := fun _ => h.deadline_eq (.inl hplace)
      isDue := fun _ => isDue_iff.mpr (wake_eq_tick_iff.mp hwake).2 }
  · exact ⟨h.interval_eq, h.started_le, iff_of_true rfl rfl, nofun, nofun⟩

/-- `Paced` is kept by every step. The next deadline comes from the time at which a tick ended, or
from a later one. -/
theorem step (h : Paced interval started log t) (hstep : Step t event t') :
    Paced interval started (log ++ [(t.now, event)]) t' := by
  cases hstep with
  | stop => exact h.stop.concat rfl
  | look hplace => exact (h.look hplace).concat rfl
  | tick hplace =>
    have hfinished := h.not_finished (by rw [hplace]; nofun)
    exact ⟨h.interval_eq, h.started_le, iff_of_false hfinished nofun, nofun, nofun⟩
  | @returned goOn now hplace hnow =>
    have hstarted : started ≤ now := Int.le_trans h.started_le hnow
    cases goOn with
    | false => exact ⟨h.interval_eq, hstarted, iff_of_true rfl rfl, nofun, nofun⟩
    | true =>
      have hfinished := h.not_finished (by rw [hplace]; nofun)
      refine ⟨h.interval_eq, hstarted, iff_of_false hfinished nofun, fun _ => ?_, nofun⟩
      refine ⟨t.now, now, .again rfl nofun, h.started_le, hnow, ?_⟩
      rw [← h.interval_eq]
      rfl

end Paced

/-! ## What a run keeps -/

variable {interval : Duration} {started time : Instant} {before after log : Log} {event : Event}
  {t t' t'' : Thread}

theorem Run.paced (h : Run (.spawned interval started) log t) : Paced interval started log t := by
  induction h with
  | nil => exact .spawned interval started
  | snoc _ _ hnow hstep ih => exact (ih.passed hnow).step hstep

/-- A run splits at each of its events. -/
theorem Run.split (h : Run t (before ++ (time, event) :: after) t') :
    ∃ t₁ t₂, Run t before t₁ ∧ t₁.now ≤ time ∧ Step { t₁ with now := time } event t₂ ∧
      Run t₂ after t' := by
  generalize hlog : before ++ (time, event) :: after = log at h
  induction h generalizing after with
  | nil => simp at hlog
  | @snoc t₁ t₂ _ _ h _ hnow hstep ih =>
    obtain rfl | ⟨rest, last, rfl⟩ := List.eq_nil_or_concat after
    · obtain ⟨rfl, heq⟩ := List.append_inj' hlog rfl
      cases heq
      exact ⟨t₁, t₂, h, hnow, hstep, .nil⟩
    · rw [List.concat_eq_append] at hlog ⊢
      rw [← List.cons_append, ← List.append_assoc] at hlog
      obtain ⟨rfl, heq⟩ := List.append_inj' hlog rfl
      cases heq
      obtain ⟨t₃, t₄, hbefore, hle, hfirst, hrest⟩ := ih rfl
      exact ⟨t₃, t₄, hbefore, hle, hfirst, hrest.snoc _ hnow hstep⟩

/-- After `.over` the only event is `.stopped`. -/
theorem Step.over (h : Step t event t') (hover : t.place = .over) :
    t'.place = .over ∧ event = .stopped := by
  cases h with
  | stop => exact ⟨hover, rfl⟩
  | look h | tick h | returned _ h => exact nomatch hover.symm.trans h

theorem Run.over (h : Run t log t') (hover : t.place = .over) :
    t'.place = .over ∧ ∀ e ∈ log, e.2 = .stopped := by
  induction h with
  | nil => exact ⟨hover, nofun⟩
  | snoc _ _ _ hstep ih =>
    obtain ⟨hplace, hlog⟩ := ih
    obtain ⟨hplace, rfl⟩ := hstep.over hplace
    exact ⟨hplace, by simpa [or_imp, forall_and] using hlog⟩

/-- The ticks that are already decided on: 1 at `.due`, else 0. -/
def Thread.pending (t : Thread) : Nat := if t.place = .due then 1 else 0

theorem Thread.pending_le_one (t : Thread) : t.pending ≤ 1 := by
  rw [pending]
  split <;> decide

/-- Once `stopped` is set, a step only begins a tick that was `pending`. -/
theorem Step.pending_le (h : Step t event t') (hstopped : t.sweeper.stopped = true) :
    t'.sweeper.stopped = true ∧ [event].count .tick + t'.pending ≤ t.pending := by
  cases h with
  | stop => exact ⟨rfl, by simp [Thread.pending]⟩
  | look hplace =>
    rw [Thread.look_of_stopped hstopped]
    exact ⟨hstopped, by simp [Thread.pending]⟩
  | tick hplace => exact ⟨hstopped, by simp [Thread.pending, hplace]⟩
  | @returned goOn now hplace hnow =>
    cases goOn <;> exact ⟨hstopped, by simp [Thread.pending]⟩

theorem Run.pending_le (h : Run t log t') (hstopped : t.sweeper.stopped = true) :
    t'.sweeper.stopped = true ∧ (log.map (·.2)).count .tick + t'.pending ≤ t.pending := by
  induction h with
  | nil => exact ⟨hstopped, by simp⟩
  | snoc _ _ _ hstep ih =>
    obtain ⟨hstopped, hle⟩ := ih
    obtain ⟨hstopped, hlast⟩ := hstep.pending_le hstopped
    refine ⟨hstopped, ?_⟩
    rw [List.map_append, List.count_append, Nat.add_assoc]
    exact Nat.le_trans (Nat.add_le_add_left hlast _) hle

/-! ## When a sweeper ticks -/

/-- From `deadline` on, a thread that waits can look and then tick. -/
theorem Run.ticks {deadline now : Instant} (h : Run t log t') (hplace : t'.place = .waiting)
    (hnext : t'.sweeper.nextTick? = some deadline) (hdue : deadline ≤ now) (hnow : t'.now ≤ now) :
    Run t (log ++ [(now, .looked false)] ++ [(now, .tick)]) { t' with place := .ticking, now } := by
  obtain ⟨hrunning, hdeadline⟩ : t'.sweeper.isRunning = true ∧ t'.sweeper.deadline = some deadline := by
    simpa [nextTick?] using hnext
  have hflag : t'.sweeper.stopped = false := by simp_all [isRunning]
  have hlook : Thread.look { t' with now } = { t' with place := .due, now } := by
    rw [Thread.look, wake_eq_tick_iff.mpr ⟨hrunning, deadline, hdeadline, hdue⟩]
  have hstep : Step { t' with now } (.looked false) { t' with place := .due, now } := by
    rw [← hlook, ← hflag]
    exact .look hplace
  exact (h.snoc now hnow hstep).snoc now (Int.le_refl _) (.tick rfl)

/-- What holds of the events of every run. -/
structure Kept (interval : Duration) (started : Instant) (log : Log) (place : Place) : Prop where
  /-- `interval` passes from the start, or from the end of the last tick, to each tick. -/
  notEarly : ∀ before time after, log = before ++ (time, .tick) :: after →
    ∃ since, Resting started before since ∧ since.plus interval ≤ time
  /-- After a look that saw `stopped`, no tick begins, and the thread is `.over`. -/
  seen : ∀ before time after, log = before ++ (time, .looked true) :: after →
    place = .over ∧ ∀ e ∈ after, e.2 = .stopped
  /-- After a tick that answered `false`, no tick begins, and the thread is `.over`. -/
  declined : ∀ before time after, log = before ++ (time, .returned false) :: after →
    place = .over ∧ ∀ e ∈ after, e.2 = .stopped
  /-- `.over` comes after one of these two. -/
  left : place = .over → ∃ e ∈ log, e.2 = .looked true ∨ e.2 = .returned false
  /-- After `.stopped` at most one tick begins, which was `pending` then. -/
  asked : ∀ before time after, log = before ++ (time, .stopped) :: after →
    (after.map (·.2)).count .tick ≤ 1
  /-- If `started + interval` is not an instant, no tick begins. -/
  never : started.after? interval = none → ∀ e ∈ log, e.2 ≠ .tick

/-- At `.due` the thread was `Resting` since a time at least `interval` ago. -/
theorem Paced.exists_since (h : Paced interval started log t) (hplace : t.place = .due) :
    (∃ since, Resting started log since ∧ since.plus interval ≤ t.now) ∧
      started.after? interval ≠ none := by
  obtain ⟨since, now, hresting, hstarted, hsince, hset⟩ := h.deadline_eq (.inr hplace)
  obtain ⟨deadline, hdeadline, hdue⟩ := isDue_iff.mp (h.isDue hplace)
  obtain ⟨hclock, rfl⟩ := Instant.after?_eq_some_iff.mp (hset.symm.trans hdeadline)
  refine ⟨⟨since, hresting, Int.le_trans (Instant.plus_mono hsince interval) hdue⟩, fun hnone => ?_⟩
  refine absurd ?_ (Instant.after?_eq_none_iff.mp hnone)
  exact Int.le_trans (Instant.plus_mono (Int.le_trans hstarted hsince) interval) hclock

theorem Step.place_of_tick (h : Step t .tick t') : t.place = .due := by
  cases h with
  | tick hplace => exact hplace

theorem Step.over_of_seen (h : Step t (.looked true) t') : t'.place = .over := by
  generalize hevent : Event.looked true = event at h
  cases h with
  | look hplace =>
    rw [Thread.look_of_stopped (Event.looked.inj hevent).symm]
  | _ => cases hevent

theorem Step.over_of_declined (h : Step t (.returned false) t') : t'.place = .over := by
  cases h with
  | returned => rfl

/-- A step to `.over` is a look that saw `stopped`, or the end of a tick that answered `false`. -/
theorem Paced.over_cases (h : Paced interval started log t) (hstep : Step t event t')
    (hover : t'.place = .over) :
    t.place = .over ∨ event = .looked true ∨ event = .returned false := by
  cases hstep with
  | stop => exact .inl hover
  | look hplace =>
    have hfinished := h.not_finished (by rw [hplace]; nofun)
    rw [Thread.look] at hover
    split at hover
    · exact .inl hover
    · cases hover
    · next hwake =>
      have hstopped := (wake_eq_quit_iff.mp hwake).resolve_right hfinished
      exact .inr (.inl (congrArg Event.looked hstopped))
  | tick hplace => cases hover
  | @returned goOn _ _ _ =>
    cases goOn with
    | false => exact .inr (.inr rfl)
    | true => cases hover

theorem Run.left (h : Run (.spawned interval started) log t) (hover : t.place = .over) :
    ∃ e ∈ log, e.2 = .looked true ∨ e.2 = .returned false := by
  induction h with
  | nil => cases hover
  | snoc h _ hnow hstep ih =>
    obtain hover | hevent := (h.paced.passed hnow).over_cases hstep hover
    · obtain ⟨e, he, hevent⟩ := ih hover
      exact ⟨e, List.mem_append_left _ he, hevent⟩
    · exact ⟨_, List.mem_append_right _ (List.mem_singleton_self _), hevent⟩

/-- Every run of the thread, with any wake-ups in between, is `Kept`: it ticks only after a whole
`interval`, and not after it saw that it is to stop. -/
theorem Run.pacing (h : Run (.spawned interval started) log t) :
    Kept interval started log t.place where
  notEarly before time after hlog := by
    obtain ⟨t₁, t₂, hbefore, hle, hstep, -⟩ := (hlog ▸ h).split
    exact ((hbefore.paced.passed hle).exists_since hstep.place_of_tick).1
  seen before time after hlog := by
    obtain ⟨t₁, t₂, -, -, hstep, hafter⟩ := (hlog ▸ h).split
    exact hafter.over hstep.over_of_seen
  declined before time after hlog := by
    obtain ⟨t₁, t₂, -, -, hstep, hafter⟩ := (hlog ▸ h).split
    exact hafter.over hstep.over_of_declined
  left := h.left
  asked before time after hlog := by
    obtain ⟨t₁, t₂, -, -, hstep, hafter⟩ := (hlog ▸ h).split
    cases hstep with
    | stop =>
      have hle := (hafter.pending_le rfl).2
      exact Nat.le_trans (Nat.le_of_add_right_le hle) (Thread.pending_le_one _)
  never hnone e he htick := by
    obtain ⟨before, after, hlog⟩ := List.append_of_mem he
    obtain ⟨time, event⟩ := e
    obtain rfl : event = .tick := htick
    obtain ⟨t₁, t₂, hbefore, hle, hstep, -⟩ := (hlog ▸ h).split
    exact ((hbefore.paced.passed hle).exists_since hstep.place_of_tick).2 hnone

/-- A run with an `interval` of 5 ns from 0 on: one wake-up comes early, and the stop comes while
the thread waits for its second tick. -/
def glimpses : Log :=
  [(⟨3⟩, .looked false), (⟨6⟩, .looked false), (⟨6⟩, .tick), (⟨8⟩, .returned true), (⟨10⟩, .stopped),
    (⟨12⟩, .looked true)]

theorem pacing_of_glimpses :
    ∃ t, Run (.spawned ⟨5⟩ ⟨0⟩) glimpses t ∧ Kept ⟨5⟩ ⟨0⟩ glimpses t.place := by
  have hticking : Run (.spawned ⟨5⟩ ⟨0⟩) (glimpses.take 3) _ :=
    (Run.nil.snoc ⟨3⟩ (by decide) (.look rfl)).ticks rfl rfl (by decide) (by decide)
  have hover : Run (.spawned ⟨5⟩ ⟨0⟩) glimpses _ :=
    ((hticking.snoc ⟨8⟩ (by decide) (.returned ⟨9⟩ rfl (by decide))).snoc
      ⟨10⟩ (by decide) .stop).snoc ⟨12⟩ (by decide) (.look rfl)
  exact ⟨_, hover, hover.pacing⟩

end Sweeper

end SessionCache
