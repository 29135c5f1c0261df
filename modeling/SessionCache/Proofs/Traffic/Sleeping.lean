import SessionCache.Proofs.Traffic.Telling

/-!
# Waiting while others have appointments

An operation that waits sleeps until a time, but is woken as soon as somebody tells that there may be
room. Meanwhile the requests in the diary are made, each at its time (`Diary.sleep`). As nobody makes
room without telling, whoever sleeps wakes up when the first of them makes room, and does not sleep past
it (`Diary.sleep_cases`).

* `Diary.Orderly`: worlds in which the appointments are still to come, in order.
* `Diary.Vain`: a list of appointments after none of which there is room.
-/

namespace SessionCache

variable {σ ι ω : Type} {s : Surroundings σ ι ω} {diary : Diary σ ι ω} {d : Desk σ ι}
  {w w' : World σ ω} {key : Key} {state : σ}

/-! ## Requests of others -/

namespace Op

/-- `Op.finish` of a key that is not checked out changes nothing. -/
theorem exec_finish_of_not_out (hx : Sound s (w.scene d))
    (hout : ∀ slot, w.cache.slot? key = some slot → slot.stage ≠ .inUse) :
    (exec (finish s key state) w).2 = w := by
  rw [finish, exec_bind_ok (exec_cache _)]
  cases hslot : w.cache.slot? key with
  | none => rfl
  | some slot =>
    dsimp only
    obtain ⟨st, hr⟩ | ho | hp := hx.kinds hslot
    · rw [hr.held, if_neg Bool.false_ne_true, hr.stage]
      rfl
    · exact absurd ho.stage (hout slot hslot)
    · rw [hp.held, if_pos rfl]
      rfl

end Op

/-- A `Frugal` request keeps `Sound`, with the same tasks. -/
theorem Request.sound (hs : s.Discreet) (hx : Sound s (w.scene d)) {request : Request σ ι}
    (hq : request.Frugal) :
    ∃ d', d'.tasks = d.tasks ∧ Sound s ((exec (request.perform s) w).2.scene d') := by
  let t : Traffic σ ι ω := { toDesk := d, world := w }
  have ht : Sound s t.scene := hx
  have hplain : request.Plain t →
      ∃ d', d'.tasks = d.tasks ∧ Sound s ((exec (request.perform s) w).2.scene d') := fun h =>
    ⟨_, by rfl, (Step.serve (t := t) h rfl).sound hs ht⟩
  cases request with
  | create | get | removeOnFinish => exact hq.elim
  | remove | sweep | passivateAll | expirePassivated | peek | contains => exact hplain trivial
  | finish key state =>
    have hperform : (exec (Request.perform s (.finish key state) : Op σ ω (Response σ)) w).2 =
        (exec (Op.finish s key state) w).2 := by
      rw [Request.perform, exec_bind]
      rcases exec (Op.finish s key state) w with ⟨_ | _, _⟩ <;> rfl
    rw [hperform]
    by_cases hout : ∃ slot, w.cache.slot? key = some slot ∧ slot.stage = .inUse
    · -- Somebody has the session in hand, with whatever state is given back.
      obtain ⟨slot, hslot, hstage⟩ := hout
      obtain ⟨-, hhands, -⟩ := hx.at_out hslot (hx.out_of_stage hslot hstage)
      have hpos : 0 < d.handles.countP (·.1 = key) := by
        have hone : d.handles.countP (·.1 = key) = 1 := hhands
        omega
      obtain ⟨⟨_, state₀⟩, hmem, rfl⟩ := Multiset.countP_pos.mp hpos
      obtain ⟨rest, hrest⟩ := Multiset.exists_cons_of_mem hmem
      have hedited := (Step.edit (t := t) state hrest).sound hs ht
      exact ⟨_, by rfl, (Step.finish (s := s) rfl rfl).sound hs hedited⟩
    · rw [Op.exec_finish_of_not_out hx fun slot hslot hstage => hout ⟨slot, hslot, hstage⟩]
      exact ⟨d, rfl, hx⟩

namespace Diary

/-! ## Appointments -/

/-- The world after the request `a.2` was performed at the time `a.1` and crossed off. -/
def keep (diary : Diary σ ι ω) (s : Surroundings σ ι ω) (w : World σ ω) (a : Instant × Request σ ι) :
    World σ ω :=
  (exec (a.2.perform s) { w with now := a.1, outside := diary.cross w.outside }).2

/-- The world after the requests of `as` were performed in order. -/
def kept (diary : Diary σ ι ω) (s : Surroundings σ ι ω) (w : World σ ω)
    (as : List (Instant × Request σ ι)) : World σ ω := as.foldl (diary.keep s) w

/-- Sleeps until `wake`. The requests before that time are performed, and the first of them that
adds to `signals` ends the sleep. -/
def sleep (diary : Diary σ ι ω) (s : Surroundings σ ι ω) (wake : Instant) :
    List (Instant × Request σ ι) → World σ ω → World σ ω
  | [], w => { w with now := wake }
  | a :: rest, w =>
    if a.1 < wake then
      if (diary.keep s w a).signals = w.signals then diary.sleep s wake rest (diary.keep s w a)
      else diary.keep s w a
    else { w with now := wake }

/-- The requests of the diary are due at `now` or later, in order of time, and `Frugal`; the world
is `Sound` with `tasks` under way. -/
structure Orderly (diary : Diary σ ι ω) (s : Surroundings σ ι ω) (tasks : Multiset (Task ι))
    (w : World σ ω) : Prop where
  sound : ∃ d, d.tasks = tasks ∧ Sound s (w.scene d)
  due : ∀ a ∈ diary.todo w.outside, w.now ≤ a.1
  order : (diary.todo w.outside).Pairwise (·.1 ≤ ·.1)
  frugal : ∀ a ∈ diary.todo w.outside, a.2.Frugal

/-- `Cache.HasRoom` fails before the requests `as`, and after each of them. -/
def Vain (diary : Diary σ ι ω) (s : Surroundings σ ι ω) (w : World σ ω)
    (as : List (Instant × Request σ ι)) : Prop :=
  ∀ done, done <+: as → ¬(diary.kept s w done).cache.HasRoom s.settings.maxSize

variable {tasks : Multiset (Task ι)} {a : Instant × Request σ ι}
  {as done early late rest : List (Instant × Request σ ι)} {time wake : Instant}

theorem kept_append : diary.kept s w (as ++ rest) = diary.kept s (diary.kept s w as) rest :=
  List.foldl_append

/-- What `kept` leads to does not depend on the time before the first request. -/
theorem kept_at (h : as ≠ []) :
    diary.kept s { w with now := time } as = diary.kept s w as := by
  cases as with
  | nil => exact absurd rfl h
  | cons a as => rfl

theorem kept_at_cache (as : List (Instant × Request σ ι)) :
    (diary.kept s { w with now := time } as).cache = (diary.kept s w as).cache := by
  cases as <;> rfl

theorem kept_until (as : List (Instant × Request σ ι)) :
    { diary.kept s { w with now := time } as with now := wake } =
      { diary.kept s w as with now := wake } := by
  cases as <;> rfl

namespace Vain

theorem at_start (h : diary.Vain s w as) : ¬w.cache.HasRoom s.settings.maxSize := h [] List.nil_prefix

theorem nil (h : ¬w.cache.HasRoom s.settings.maxSize) : diary.Vain s w [] := fun done hdone => by
  obtain rfl := List.prefix_nil.mp hdone
  exact h

theorem cons (h : ¬w.cache.HasRoom s.settings.maxSize) (hvain : diary.Vain s (diary.keep s w a) as) :
    diary.Vain s w (a :: as) := by
  intro done hdone
  obtain rfl | ⟨more, rfl, hmore⟩ := List.prefix_cons_iff.mp hdone
  · exact h
  · exact hvain more hmore

theorem after (h : diary.Vain s w (done ++ rest)) : diary.Vain s (diary.kept s w done) rest := by
  intro more hmore
  rw [← kept_append]
  exact h _ ((List.prefix_append_right_inj done).mpr hmore)

theorem later (h : diary.Vain s w as) : diary.Vain s { w with now := time } as := fun done hdone => by
  rw [kept_at_cache]
  exact h done hdone

end Vain

namespace Orderly

theorem later (h : diary.Orderly s tasks w) (hdue : ∀ a ∈ diary.todo w.outside, time ≤ a.1) :
    diary.Orderly s tasks { w with now := time } := by
  obtain ⟨d, hd, hx⟩ := h.sound
  exact ⟨⟨d, hd, hx.same rfl rfl rfl rfl⟩, hdue, h.order, h.frugal⟩

/-- If the first request is not due before `wake`, none is. -/
theorem not_before (h : diary.Orderly s tasks w) (htodo : diary.todo w.outside = a :: as)
    (hnot : ¬a.1 < wake) : ∀ b ∈ a :: as, wake ≤ b.1 := by
  have horder := h.order
  rw [htodo] at horder
  have hwake : wake ≤ a.1 := Int.not_lt.mp hnot
  intro b hb
  obtain rfl | hb := List.mem_cons.mp hb
  · exact hwake
  · exact Int.le_trans hwake ((List.pairwise_cons.mp horder).1 b hb)

/-- `keep` performs the first request: the diary is `Orderly` with the others, and `signals` went up
if there is room. -/
theorem keep (hs : s.Prompt diary) (h : diary.Orderly s tasks w)
    (htodo : diary.todo w.outside = a :: rest) :
    diary.Orderly s tasks (diary.keep s w a) ∧ diary.todo (diary.keep s w a).outside = rest ∧
      (diary.keep s w a).now = a.1 ∧
      ((diary.keep s w a).signals = w.signals →
        (diary.keep s w a).cache.HasRoom s.settings.maxSize →
        w.cache.HasRoom s.settings.maxSize) := by
  have horder := h.order
  have hfrugal := h.frugal
  rw [htodo] at horder hfrugal
  have htail : diary.todo (diary.cross w.outside) = rest := by rw [diary.todo_cross, htodo]; rfl
  obtain ⟨d, hd, hx⟩ := h.sound
  have htells : diary.Tells s.settings.maxSize
      { w with now := a.1, outside := diary.cross w.outside } (diary.keep s w a) :=
    Request.telling hs (hfrugal a List.mem_cons_self) _
  have htodo' : diary.todo (diary.keep s w a).outside = rest := htells.todo.trans htail
  refine ⟨⟨?_, ?_, ?_, ?_⟩, htodo', htells.now, fun hsignals => ?_⟩
  · obtain ⟨d', hd', hx'⟩ := Request.sound (d := d)
      (w := { w with now := a.1, outside := diary.cross w.outside }) hs.discreet
      (hx.same rfl rfl rfl rfl) (hfrugal a List.mem_cons_self)
    exact ⟨d', hd'.trans hd, hx'⟩
  · rw [htodo', htells.now]
    exact (List.pairwise_cons.mp horder).1
  · rw [htodo']
    exact (List.pairwise_cons.mp horder).2
  · rw [htodo']
    exact fun b hb => hfrugal b (List.mem_cons_of_mem _ hb)
  · obtain hlt | ⟨-, hroom⟩ := htells.signals
    · exact absurd hlt (Nat.not_lt.mpr (Nat.le_of_eq hsignals))
    · exact hroom

/-- `kept` performs the first requests: the diary is `Orderly` with the others. -/
theorem kept (hs : s.Prompt diary) (h : diary.Orderly s tasks w)
    (htodo : diary.todo w.outside = done ++ rest) :
    diary.Orderly s tasks (diary.kept s w done) ∧ diary.todo (diary.kept s w done).outside = rest ∧
      w.now ≤ (diary.kept s w done).now := by
  induction done generalizing w with
  | nil => exact ⟨h, htodo, Int.le_refl _⟩
  | cons a done ih =>
    obtain ⟨horderly, htodo', hnow, -⟩ := h.keep hs htodo
    obtain ⟨horderly', htodo'', hle⟩ := ih horderly htodo'
    refine ⟨horderly', htodo'', Int.le_trans ?_ hle⟩
    rw [hnow]
    exact h.due a (htodo ▸ List.mem_cons_self)

/-- After `kept`, the time is that of one of the requests. -/
theorem kept_time (hs : s.Prompt diary) (h : diary.Orderly s tasks w)
    (htodo : diary.todo w.outside = done ++ rest) (hne : done ≠ []) :
    ∃ a ∈ done, (diary.kept s w done).now = a.1 := by
  induction done generalizing w with
  | nil => exact absurd rfl hne
  | cons a done ih =>
    obtain ⟨horderly, htodo', hnow, -⟩ := h.keep hs htodo
    cases done with
    | nil => exact ⟨a, List.mem_cons_self, hnow⟩
    | cons b done =>
      obtain ⟨c, hc, htime⟩ := ih horderly htodo' (List.cons_ne_nil b done)
      exact ⟨c, List.mem_cons_of_mem a hc, htime⟩

end Orderly

/-! ## Sleeping -/

/-- `sleep` while there is no room: a request before `wake` ends it, at the latest the first after
which there is room, or it lasts until `wake`, and the requests that are left are due later. -/
theorem sleep_cases (hs : s.Prompt diary) (h : diary.Orderly s tasks w)
    (htodo : diary.todo w.outside = early ++ late) (hvain : diary.Vain s w early)
    (hnext : ∀ a rest, late = a :: rest → a.1 < wake →
      (diary.kept s w (early ++ [a])).cache.HasRoom s.settings.maxSize) :
    (∃ done rest, done ≠ [] ∧ early = done ++ rest ∧
        diary.sleep s wake (early ++ late) w = diary.kept s w done) ∨
      (∃ done rest, early = done ++ rest ∧
        diary.sleep s wake (early ++ late) w = { diary.kept s w done with now := wake } ∧
        ∀ a ∈ rest ++ late, wake ≤ a.1) ∨
      ∃ a rest, late = a :: rest ∧ a.1 < wake ∧
        diary.sleep s wake (early ++ late) w = diary.kept s w (early ++ [a]) := by
  induction early generalizing w with
  | nil =>
    cases late with
    | nil => exact .inr (.inl ⟨[], [], rfl, rfl, by simp⟩)
    | cons a rest =>
      rw [List.nil_append, sleep]
      split
      · rename_i hbefore
        obtain ⟨-, -, -, hroom⟩ := h.keep hs htodo
        rw [if_neg fun hsignals => hvain.at_start (hroom hsignals (hnext a rest rfl hbefore))]
        exact .inr (.inr ⟨a, rest, rfl, hbefore, rfl⟩)
      · rename_i hnot
        exact .inr (.inl ⟨[], [], rfl, rfl, h.not_before htodo hnot⟩)
  | cons b early ih =>
    obtain ⟨horderly, htodo', -, -⟩ := h.keep hs htodo
    rw [List.cons_append, sleep]
    split
    · split
      · obtain ⟨done, rest, hne, rfl, hsleep⟩ | ⟨done, rest, rfl, hsleep, hrest⟩ |
          ⟨a, rest, rfl, hbefore, hsleep⟩ :=
            ih horderly htodo' (show diary.Vain s w ([b] ++ early) from hvain).after hnext
        · exact .inl ⟨b :: done, rest, by simp, rfl, hsleep⟩
        · exact .inr (.inl ⟨b :: done, rest, rfl, hsleep, hrest⟩)
        · exact .inr (.inr ⟨a, rest, rfl, hbefore, hsleep⟩)
      · exact .inl ⟨[b], early, by simp, rfl, rfl⟩
    · rename_i hnot
      exact .inr (.inl ⟨[], b :: early, rfl, rfl, h.not_before htodo hnot⟩)

/-- `w'` is on the way from `w`: `rest` are the requests of `early` still to be performed, and with
them the rest leads where all of them lead from `w`. -/
structure Onward (diary : Diary σ ι ω) (s : Surroundings σ ι ω) (tasks : Multiset (Task ι))
    (late : List (Instant × Request σ ι)) (w : World σ ω) (early : List (Instant × Request σ ι))
    (w' : World σ ω) (rest : List (Instant × Request σ ι)) : Prop where
  left : rest <:+ early
  orderly : diary.Orderly s tasks w'
  todo : diary.todo w'.outside = rest ++ late
  vain : diary.Vain s w' rest
  kept : ∀ more, more ≠ [] → diary.kept s w' (rest ++ more) = diary.kept s w (early ++ more)
  ends : ∀ time, { diary.kept s w' rest with now := time } =
    { diary.kept s w early with now := time }

theorem Orderly.onward (hs : s.Prompt diary) (h : diary.Orderly s tasks w)
    (htodo : diary.todo w.outside = done ++ (rest ++ late)) (hvain : diary.Vain s w (done ++ rest))
    (htime : ∀ b ∈ rest ++ late, time ≤ b.1) :
    diary.Onward s tasks late w (done ++ rest) { diary.kept s w done with now := time } rest := by
  obtain ⟨horderly, htodo', -⟩ := h.kept hs htodo
  refine ⟨List.suffix_append done rest, horderly.later fun b hb => htime b (htodo' ▸ hb), htodo',
    hvain.after.later,
    fun more hmore => ?_, fun time => ?_⟩
  · rw [kept_at (by simp [hmore]), List.append_assoc]
    exact kept_append.symm
  · rw [kept_until, ← kept_append]

end Diary

end SessionCache
