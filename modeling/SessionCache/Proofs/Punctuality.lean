import Mathlib.Data.List.Pairwise
import SessionCache.Proofs.Reinstatement
import SessionCache.Proofs.Traffic.Sleeping

/-!
# Waiting for room

An operation that needs room in a full cache looks for it, sleeps for a slice, and looks again. While
others only do what needs no room, it gets the first room that there is before its deadline, at the time
when it is made; and if there is none it fails at its deadline, neither before nor after, and has changed
nothing but the clock. It takes a bounded number of looks to come so far.

* `Op.exec_acquire_round`: one look that finds nothing, and the sleep after it.
* `Op.exec_acquire_reaches`: the search gets to the first appointment that makes room;
  `Op.exec_acquire_served` is its end there.
* `Op.exec_acquire_vain`, `Op.exec_acquire_endless`: the search where no appointment makes room.
* `Diary.rounds`: the number of looks. `Op.Waited`: how the search ends.
* `Run.punctuality`: all of this, in every state that a cache in use gets to.
-/

namespace SessionCache

variable {σ ι ω : Type} {s : Surroundings σ ι ω} {diary : Diary σ ι ω} {d : Desk σ ι}
  {w w' : World σ ω} {key : Key} {deadline : Deadline} {limit : Instant} {looks : Nat}
  {tasks : Multiset (Task ι)} {a : Instant × Request σ ι}
  {early late rest : List (Instant × Request σ ι)}

/-- `wait d` does what `Diary.sleep` does with the requests in `diary.todo`, and callbacks do not
move the clock. -/
structure Surroundings.Punctual (s : Surroundings σ ι ω) (diary : Diary σ ι ω) : Prop
    extends s.Prompt diary where
  wait : ∀ d w,
    (s.wait d).run w = ((), diary.sleep s (w.now.plus d) (diary.todo w.outside) w)

/-- `now.after? d`, if it is a time, is not before `now`. -/
theorem Instant.le_of_after? {now time : Instant} {d : Duration} (h : now.after? d = some time) :
    now ≤ time := by
  rw [after?] at h
  split at h
  · obtain rfl := Option.some.inj h
    exact Int.le_add_of_nonneg_right (Int.natCast_nonneg d.nanos)
  · exact nomatch h

namespace Deadline

/-- The deadline has not passed at `now`. -/
def Open : Deadline → Instant → Prop
  | .never, _ => False
  | .until limit, now => now < limit
  | .unbounded, _ => True

/-- `d / slice`, rounded down. -/
def slices (d : Duration) : Nat := d.nanos / slice.nanos

/-- `nextSlice` is a full `slice` that ends by the deadline, or it ends exactly there. -/
theorem Open.wake {now : Instant} (h : deadline.Open now) :
    (deadline.nextSlice now = slice ∧ ∀ limit, deadline = .until limit → now.plus slice ≤ limit) ∨
      ∃ limit, deadline = .until limit ∧ now.plus (deadline.nextSlice now) = limit := by
  cases deadline with
  | never | unbounded => exact .inl ⟨rfl, nofun⟩
  | «until» limit =>
    have hlt : now.nanos < limit.nanos := h
    rw [nextSlice, Duration.min]
    split
    · refine .inr ⟨limit, rfl, ?_⟩
      have hsum : now.nanos + (limit.nanos - now.nanos).toNat = limit.nanos := by omega
      exact congrArg Instant.mk hsum
    · rename_i hlong
      refine .inl ⟨rfl, ?_⟩
      rintro _ ⟨⟩
      have hlong : ¬(limit.nanos - now.nanos).toNat ≤ slice.nanos := hlong
      have hle : now.nanos + slice.nanos ≤ limit.nanos := by omega
      exact hle

/-- `nextSlice` does not go past the deadline. -/
theorem Open.plus_nextSlice_le {now : Instant} (h : (Deadline.until limit).Open now) :
    now.plus ((Deadline.until limit).nextSlice now) ≤ limit := by
  obtain ⟨hslice, hin⟩ | ⟨_, ⟨⟩, hlimit⟩ := h.wake
  · rw [hslice]
    exact hin limit rfl
  · rw [hlimit]
    exact Int.le_refl _

/-- One full `slice` less is left after one was slept. -/
theorem slices_since_plus {now time : Instant} (h : now.plus slice ≤ time) :
    slices (time.since (now.plus slice)) + 1 = slices (time.since now) := by
  have hle : now.nanos + 25000000 ≤ time.nanos := h
  change (time.nanos - (now.nanos + 25000000)).toNat / 25000000 + 1 =
    (time.nanos - now.nanos).toNat / 25000000
  omega

theorem slices_mono {now now' time time' : Instant} (h : now ≤ now') (h' : time' ≤ time) :
    slices (time'.since now') ≤ slices (time.since now) := by
  refine Nat.div_le_div_right ?_
  have hle : now.nanos ≤ now'.nanos := h
  have hle' : time'.nanos ≤ time.nanos := h'
  change (time'.nanos - now'.nanos).toNat ≤ (time.nanos - now.nanos).toNat
  omega

theorem Open.mono {now now' : Instant} (h : deadline.Open now') (hle : now ≤ now') :
    deadline.Open now := by
  cases deadline with
  | never => exact h
  | «until» limit => exact Int.lt_of_le_of_lt hle h
  | unbounded => exact trivial

end Deadline

namespace Op

/-! ## One look -/

/-- `Op.look` in a cache without room: `.allInUse` for `.never`, `.waitedInVain` once the deadline
has passed, else `.wait`. -/
theorem exec_look_full (hx : Sound s (w.scene d)) (hroom : ¬w.cache.HasRoom s.settings.maxSize)
    (deadline : Deadline) :
    exec (look s deadline) w =
      (match deadline with
        | .never => .error (.allInUse s.settings.maxSize)
        | .until limit =>
          if limit ≤ w.now then .error (.waitedInVain s.settings.blockTimeout.millis)
          else .ok (.later (deadline.nextSlice w.now))
        | .unbounded => .ok (.later (deadline.nextSlice w.now)), w) := by
  have hv : w.cache.victim? = none := Cache.victim?_of_not_hasRoom hx.distinct hroom
  rw [look, exec_bind_ok (exec_cache _), if_neg fun h => hroom (.inl h), hv]
  dsimp only
  rw [exec_bind_ok (exec_now _)]
  cases deadline with
  | never | unbounded => rfl
  | «until» limit =>
    dsimp only
    split <;> rfl

/-- With `.unbounded`, `Op.acquire` never answers `.waitedInVain`. -/
theorem exec_acquire_patient {r : Except CacheError Unit}
    (h : exec (acquire s .unbounded looks) w = (r, w')) (millis : Nat) :
    r ≠ .error (.waitedInVain millis) := by
  induction looks generalizing w with
  | zero =>
    cases h
    rintro ⟨⟩
  | succ looks ih =>
    rw [acquire] at h
    obtain ⟨found, w₁, hlook, h⟩ | ⟨e, hlook, rfl⟩ := exec_bind_cases h
    · cases found with
      | taken =>
        cases h
        rintro ⟨⟩
      | made => exact ih h
      | later delay => exact ih (by rwa [exec_bind_ok (exec_lift _ _)] at h)
    · rintro ⟨⟩
      obtain ⟨-, ⟨⟩, -⟩ | ⟨-, victim, _, -, -, ⟨-, ⟨⟩⟩ | ⟨cause, -, he⟩⟩ |
        ⟨-, -, -, ⟨_, ⟨⟩, hgives⟩ | ⟨_, ⟨⟩⟩⟩ := exec_look_cases hlook
      · cases cause <;> cases he
      · cases hgives

/-! ## Rounds -/

/-- One round of `Op.acquire` without room: `Op.look` answers `.wait`, and the sleep ends after some
of the requests of `late`, at the end of the slice, or after the request that makes room. -/
theorem exec_acquire_round (hs : s.Punctual diary) (h : diary.Orderly s tasks w)
    (htodo : diary.todo w.outside = early ++ late) (hvain : diary.Vain s w early)
    (hopen : deadline.Open w.now)
    (hnext : ∀ a rest, late = a :: rest → a.1 < w.now.plus (deadline.nextSlice w.now) →
      (diary.kept s w (early ++ [a])).cache.HasRoom s.settings.maxSize) (looks : Nat) :
    (∃ w' rest, exec (acquire s deadline (looks + 1)) w = exec (acquire s deadline looks) w' ∧
        diary.Onward s tasks late w early w' rest ∧
        (rest.length < early.length ∧ w.now ≤ w'.now ∧ (∃ b ∈ early, w'.now = b.1) ∨
          w'.now = w.now.plus (deadline.nextSlice w.now))) ∨
      ∃ a rest, late = a :: rest ∧ a.1 < w.now.plus (deadline.nextSlice w.now) ∧
        exec (acquire s deadline (looks + 1)) w =
          exec (acquire s deadline looks) (diary.kept s w (early ++ [a])) := by
  have hround : exec (acquire s deadline (looks + 1)) w =
      exec (acquire s deadline looks)
        (diary.sleep s (w.now.plus (deadline.nextSlice w.now)) (early ++ late) w) := by
    obtain ⟨d, -, hx⟩ := h.sound
    have hlook : exec (look s deadline) w = (.ok (.later (deadline.nextSlice w.now)), w) := by
      rw [exec_look_full hx hvain.at_start deadline]
      cases deadline with
      | never => exact hopen.elim
      | «until» limit =>
        have hnot : ¬limit ≤ w.now := Int.not_le.mpr hopen
        dsimp only
        rw [if_neg hnot]
      | unbounded => rfl
    rw [acquire, exec_bind_ok hlook]
    dsimp only
    rw [exec_bind_ok (exec_lift _ _), hs.wait, htodo]
  obtain ⟨done, rest, hne, rfl, hsleep⟩ | ⟨done, rest, rfl, hsleep, hlate⟩ | hmade :=
    Diary.sleep_cases hs.toPrompt h htodo hvain hnext
  · rw [List.append_assoc] at htodo
    obtain ⟨horderly, htodo', hle⟩ := h.kept hs.toPrompt htodo
    obtain ⟨b, hb, htime⟩ := h.kept_time hs.toPrompt htodo hne
    have hpos := List.length_pos_of_ne_nil hne
    refine .inl ⟨diary.kept s w done, rest, hround.trans (by rw [hsleep]), ?_,
      .inl ⟨?_, hle, b, List.mem_append_left rest hb, htime⟩⟩
    · exact h.onward hs.toPrompt htodo hvain fun b hb => horderly.due b (htodo' ▸ hb)
    · rw [List.length_append]
      omega
  · rw [List.append_assoc] at htodo
    exact .inl ⟨_, rest, hround.trans (by rw [hsleep]), h.onward hs.toPrompt htodo hvain hlate, .inr rfl⟩
  · obtain ⟨a, rest, hlate, hbefore, hsleep⟩ := hmade
    exact .inr ⟨a, rest, hlate, hbefore, hround.trans (by rw [hsleep])⟩

/-- `Op.acquire` gets to the first request that makes room, if that is before the deadline. -/
theorem exec_acquire_reaches (hs : s.Punctual diary) (h : diary.Orderly s tasks w)
    (htodo : diary.todo w.outside = early ++ a :: rest) (hvain : diary.Vain s w early)
    (hroom : (diary.kept s w (early ++ [a])).cache.HasRoom s.settings.maxSize)
    (hopen : deadline.Open a.1) (more : Nat)
    (hlooks : early.length + Deadline.slices (a.1.since w.now) + 1 + more ≤ looks) :
    ∃ left, more ≤ left ∧
      exec (acquire s deadline looks) w =
        exec (acquire s deadline left) (diary.kept s w (early ++ [a])) := by
  induction looks generalizing w early with
  | zero => omega
  | succ looks ih =>
    have hdue : w.now ≤ a.1 := h.due a (htodo ▸ by simp)
    obtain ⟨w', later, hround, honward, hfewer⟩ | ⟨_, _, ⟨⟩, -, hround⟩ :=
      exec_acquire_round hs h htodo hvain (hopen.mono hdue) (by
        rintro _ _ ⟨⟩ -
        exact hroom) looks
    · have hkept := honward.kept [a] (List.cons_ne_nil a [])
      have hdue' : w'.now ≤ a.1 := honward.orderly.due a (honward.todo ▸ by simp)
      rw [hround, ← hkept]
      refine ih honward.orderly honward.todo honward.vain (hkept ▸ hroom) ?_
      obtain ⟨hlength, hle, -⟩ | hnow := hfewer
      · have := Deadline.slices_mono hle (Int.le_refl a.1.nanos)
        omega
      · obtain ⟨hslice, -⟩ | ⟨limit, rfl, hlimit⟩ := (hopen.mono hdue).wake
        · rw [hslice] at hnow
          rw [hnow] at hdue' ⊢
          have := Deadline.slices_since_plus hdue'
          have := honward.left.length_le
          omega
        · rw [hnow, hlimit] at hdue'
          exact absurd hopen (Int.not_lt.mpr hdue')
    · exact ⟨looks, by omega, hround⟩

/-- `Op.acquire` without room answers `.waitedInVain` once the deadline has passed. -/
theorem exec_acquire_late (hx : Sound s (w.scene d)) (hroom : ¬w.cache.HasRoom s.settings.maxSize)
    (hlate : limit ≤ w.now) :
    exec (acquire s (.until limit) (looks + 1)) w =
      (.error (.waitedInVain s.settings.blockTimeout.millis), w) := by
  have hlook := exec_look_full hx hroom (.until limit)
  dsimp only at hlook
  rw [if_pos hlate] at hlook
  rw [acquire, exec_bind_error hlook]

/-- At `w.now = limit` no request before `limit` is still in `todo`. -/
theorem exec_acquire_due (h : diary.Orderly s tasks w) (htodo : diary.todo w.outside = early ++ late)
    (hvain : diary.Vain s w early) (hearly : ∀ b ∈ early, b.1 < limit) (hnow : w.now = limit) :
    exec (acquire s (.until limit) (looks + 1)) w =
      (.error (.waitedInVain s.settings.blockTimeout.millis),
        { diary.kept s w early with now := limit }) := by
  obtain rfl : early = [] := by
    refine List.eq_nil_iff_forall_not_mem.mpr fun b hb => ?_
    have hdue := h.due b (htodo ▸ List.mem_append_left late hb)
    rw [hnow] at hdue
    exact Int.not_lt.mpr hdue (hearly b hb)
  obtain ⟨d, -, hx⟩ := h.sound
  rw [exec_acquire_late hx hvain.at_start (hnow ▸ Int.le_refl _), ← hnow]
  rfl

/-- If no request before `limit` makes room, `Op.acquire` answers `.waitedInVain` at `now = limit`,
in the world that those requests left. -/
theorem exec_acquire_vain (hs : s.Punctual diary) (h : diary.Orderly s tasks w)
    (htodo : diary.todo w.outside = early ++ late) (hvain : diary.Vain s w early)
    (hearly : ∀ b ∈ early, b.1 < limit) (hlate : ∀ b ∈ late, limit ≤ b.1) (hle : w.now ≤ limit)
    (hlooks : early.length + Deadline.slices (limit.since w.now) + 2 ≤ looks) :
    exec (acquire s (.until limit) looks) w =
      (.error (.waitedInVain s.settings.blockTimeout.millis),
        { diary.kept s w early with now := limit }) := by
  induction looks generalizing w early with
  | zero => omega
  | succ looks ih =>
    by_cases hbefore : (Deadline.until limit).Open w.now
    · -- Nobody who sleeps to the deadline at the latest is woken by what comes after it.
      have hnot : ∀ b ∈ late, ¬b.1 < w.now.plus ((Deadline.until limit).nextSlice w.now) :=
        fun b hb => Int.not_lt.mpr (Int.le_trans hbefore.plus_nextSlice_le (hlate b hb))
      obtain ⟨w', rest, hround, honward, hfewer⟩ | ⟨b, rest, rfl, hlt, -⟩ :=
        exec_acquire_round hs h htodo hvain hbefore
          (fun b rest heq hlt => absurd hlt (hnot b (heq ▸ List.mem_cons_self))) looks
      · rw [hround, ← honward.ends]
        have hearly' : ∀ b ∈ rest, b.1 < limit := fun b hb => hearly b (honward.left.subset hb)
        obtain ⟨hlength, hle', b, hb, htime⟩ | hnow := hfewer
        · refine ih honward.orderly honward.todo honward.vain hearly' ?_ ?_
          · rw [htime]
            exact Int.le_of_lt (hearly b hb)
          · have := Deadline.slices_mono hle' (Int.le_refl limit.nanos)
            omega
        · obtain ⟨hslice, hin⟩ | ⟨_, ⟨⟩, hlimit⟩ := hbefore.wake
          · rw [hslice] at hnow
            refine ih honward.orderly honward.todo honward.vain hearly' (hnow ▸ hin limit rfl) ?_
            rw [hnow]
            have := Deadline.slices_since_plus (hin limit rfl)
            have := honward.left.length_le
            omega
          · obtain ⟨more, rfl⟩ : ∃ more, looks = more + 1 := ⟨looks - 1, by omega⟩
            exact exec_acquire_due honward.orderly honward.todo honward.vain hearly'
              (hnow.trans hlimit)
      · exact absurd hlt (hnot b List.mem_cons_self)
    · refine exec_acquire_due h htodo hvain hearly (congrArg Instant.mk ?_)
      exact Int.le_antisymm hle (Int.not_lt.mp hbefore)

/-- With `.unbounded`, and if no request makes room, `Op.acquire` runs out of any number of
`looks`. -/
theorem exec_acquire_endless (hs : s.Punctual diary) (h : diary.Orderly s tasks w)
    (hvain : diary.Vain s w (diary.todo w.outside)) (looks : Nat) :
    (exec (acquire s .unbounded looks) w).1 = .error .stalled := by
  induction looks generalizing w with
  | zero => rfl
  | succ looks ih =>
    obtain ⟨w', rest, hround, honward, -⟩ | ⟨_, _, heq, -⟩ :=
      exec_acquire_round hs h (List.append_nil _).symm hvain
        (show Deadline.unbounded.Open w.now from trivial) (fun _ _ heq => nomatch heq) looks
    · rw [hround]
      refine ih honward.orderly ?_
      rw [honward.todo, List.append_nil]
      exact honward.vain
    · exact nomatch heq

/-! ## Where there is room -/

/-- The outcome of `Op.acquire` where `HasRoom` holds. -/
inductive Served (s : Surroundings σ ι ω) (w : World σ ω) :
    Except CacheError Unit → World σ ω → Prop where
  /-- `occupied < maxSize`: it takes a unit. -/
  | free (hroom : w.cache.occupied < s.settings.maxSize) : Served s w (.ok ()) w.taken
  /-- It passivates `victim?` and takes that unit. -/
  | vacated {victim : Key} {w₁ : World σ ω} (hv : w.cache.victim? = some victim)
      (hp : exec (passivate s victim) w = (.ok (), w₁)) : Served s w (.ok ()) w₁.taken
  /-- `Op.passivate` of `victim?` fails. -/
  | refused {victim : Key} {failure : CacheError} {w₁ : World σ ω} (hv : w.cache.victim? = some victim)
      (hp : exec (passivate s victim) w = (.error failure, w₁)) :
      Served s w (.error (evictionError victim failure)) w₁

/-- Where `HasRoom` holds, two looks are enough for an outcome that is `Served`, and the clock
stands still. -/
theorem exec_acquire_served (hs : s.Prompt diary) (hx : Sound s (w.scene d))
    (hroom : w.cache.HasRoom s.settings.maxSize) (deadline : Deadline) (looks : Nat) :
    ∃ r w', exec (acquire s deadline (looks + 2)) w = (r, w') ∧ Served s w r w' ∧ w'.now = w.now := by
  have htake : ∀ {w : World σ ω} {looks}, w.cache.occupied < s.settings.maxSize →
      exec (acquire s deadline (looks + 1)) w = (.ok (), w.taken) := by
    intro w looks hfree
    rw [acquire, exec_bind_ok (exec_look_of_room hfree _)]
    rfl
  by_cases hfree : w.cache.occupied < s.settings.maxSize
  · exact ⟨_, _, htake hfree, .free hfree, rfl⟩
  cases hv : w.cache.victim? with
  | none =>
    obtain hlt | ⟨key, slot, hslot, hready⟩ := hroom
    · exact absurd hlt hfree
    · obtain ⟨state, hr⟩ := hx.ready_of_stage hslot hready
      cases hr.held.symm.trans (Cache.held_of_victim?_none hv hslot hready)
  | some victim =>
    obtain ⟨slot, state, hslot, hr⟩ := ready_of_victim? hx hv
    rcases hp : exec (passivate s victim) w with ⟨r, w₁⟩
    have hnow : w₁.now = w.now :=
      ((Telling.passivate (n := s.settings.maxSize) hs).at hp).now
    cases r with
    | error failure =>
      refine ⟨_, w₁, ?_, .refused hv hp, hnow⟩
      rw [acquire, exec_bind_error (exec_look_unplaced hfree hv hp deadline)]
    | ok =>
      have hlook : exec (look s deadline) w = (.ok .made, w₁) := by
        rw [look, exec_bind_ok (exec_cache _), if_neg hfree, hv]
        dsimp only
        rw [exec_bind_ok (exec_attempt _ _), hp]
        rfl
      have hless : w₁.cache.occupied < s.settings.maxSize := by
        have hcache : w₁.cache = (w.cache.unlink victim).countPassivated :=
          (exec_departed hs.discreet hslot hr hp d).2.cache_of_ok rfl
        have hocc : w₁.cache.occupied = w.cache.occupied - 1 := by
          rw [hcache]
          exact (Cache.occupied_unlink hslot).trans (by rw [hr.reserved]; rfl)
        have hbound : w.cache.occupied ≤ s.settings.maxSize := hx.bound
        omega
      refine ⟨_, _, ?_, .vacated hv hp, hnow⟩
      rw [acquire, exec_bind_ok hlook]
      exact htake hless

/-- At the first request that makes room, `Op.acquire` is `Served` at the time of that request. -/
theorem exec_acquire_room (hs : s.Punctual diary) (h : diary.Orderly s tasks w)
    (htodo : diary.todo w.outside = early ++ a :: late) (hvain : diary.Vain s w early)
    (hroom : (diary.kept s w (early ++ [a])).cache.HasRoom s.settings.maxSize)
    (hopen : deadline.Open a.1) (looks : Nat)
    (hlooks : early.length + Deadline.slices (a.1.since w.now) + 3 ≤ looks) :
    ∃ r w', exec (acquire s deadline looks) w = (r, w') ∧
      Served s (diary.kept s w (early ++ [a])) r w' ∧ w'.now = a.1 := by
  obtain ⟨left, hleft, hreach⟩ := exec_acquire_reaches hs h htodo hvain hroom hopen 2 hlooks
  obtain ⟨more, rfl⟩ := Nat.exists_eq_add_of_le' hleft
  obtain ⟨horderly, htodo', -⟩ := h.kept hs.toPrompt htodo
  obtain ⟨⟨⟨d, -, hx⟩, -⟩, -, hnow, -⟩ := horderly.keep hs.toPrompt htodo'
  rw [Diary.kept_append] at hroom hreach ⊢
  obtain ⟨r, w', hserve, hserved, hsame⟩ := exec_acquire_served hs.toPrompt hx hroom deadline more
  exact ⟨r, w', hreach.trans hserve, hserved, hsame.trans hnow⟩

/-! ## How the search ends -/

/-- The outcome of `Op.reserve` from a full `w`, while the requests in `diary.todo` are served at
their times. -/
inductive Waited (s : Surroundings σ ι ω) (diary : Diary σ ι ω) (w : World σ ω) :
    Except CacheError Unit → World σ ω → Prop where
  /-- `blockOnFull = false`: it fails at once, in `w`. -/
  | full (hblock : s.settings.blockOnFull = false) :
      Waited s diary w (.error (.allInUse s.settings.maxSize)) w
  /-- `a` is the first request that makes room, and comes before the deadline: `Op.reserve` is
  `Served` at `a.1`. -/
  | room {early late : List (Instant × Request σ ι)} {a : Instant × Request σ ι}
      {r : Except CacheError Unit} {w' : World σ ω} (hblock : s.settings.blockOnFull = true)
      (htodo : diary.todo w.outside = early ++ a :: late) (hvain : diary.Vain s w early)
      (hroom : (diary.kept s w (early ++ [a])).cache.HasRoom s.settings.maxSize)
      (hbefore : ∀ limit, w.now.after? s.settings.blockTimeout = some limit → a.1 < limit)
      (hserved : Served s (diary.kept s w (early ++ [a])) r w') (hnow : w'.now = a.1) :
      Waited s diary w r w'
  /-- No request before `limit` makes room: `.waitedInVain` at `now = limit`, in the world that
  those requests left. -/
  | vain {early late : List (Instant × Request σ ι)} {limit : Instant}
      (hblock : s.settings.blockOnFull = true)
      (hlimit : w.now.after? s.settings.blockTimeout = some limit)
      (htodo : diary.todo w.outside = early ++ late) (hvain : diary.Vain s w early)
      (hearly : ∀ b ∈ early, b.1 < limit) (hlate : ∀ b ∈ late, limit ≤ b.1) :
      Waited s diary w (.error (.waitedInVain s.settings.blockTimeout.millis))
        { diary.kept s w early with now := limit }
  /-- `now + blockTimeout` is past the last instant, and no request makes room: it waits for
  ever. -/
  | endless {w' : World σ ω} (hblock : s.settings.blockOnFull = true)
      (hlimit : w.now.after? s.settings.blockTimeout = none)
      (hvain : diary.Vain s w (diary.todo w.outside)) : Waited s diary w (.error .stalled) w'

end Op

namespace Diary

/-- No request in `as` makes room, or there is a first that does. -/
theorem vain_or (h : ¬w.cache.HasRoom s.settings.maxSize) (as : List (Instant × Request σ ι)) :
    diary.Vain s w as ∨
      ∃ early a late, as = early ++ a :: late ∧ diary.Vain s w early ∧
        (diary.kept s w (early ++ [a])).cache.HasRoom s.settings.maxSize := by
  induction as generalizing w with
  | nil => exact .inl (.nil h)
  | cons a as ih =>
    by_cases hroom : (diary.keep s w a).cache.HasRoom s.settings.maxSize
    · exact .inr ⟨[], a, as, rfl, .nil h, hroom⟩
    · obtain hvain | ⟨early, b, late, rfl, hvain, hb⟩ := ih hroom
      · exact .inl (hvain.cons h)
      · exact .inr ⟨a :: early, b, late, rfl, hvain.cons h, hb⟩

/-- `todo` splits into the requests before `limit` and those from `limit` on. -/
theorem Orderly.split (h : diary.Orderly s tasks w) (limit : Instant) :
    ∃ early late, diary.todo w.outside = early ++ late ∧ (∀ b ∈ early, b.1 < limit) ∧
      ∀ b ∈ late, limit ≤ b.1 := by
  have horder := h.order
  generalize diary.todo w.outside = as at horder
  induction as with
  | nil => exact ⟨[], [], rfl, nofun, nofun⟩
  | cons a as ih =>
    obtain ⟨hle, horder⟩ := List.pairwise_cons.mp horder
    by_cases hbefore : a.1 < limit
    · obtain ⟨early, late, rfl, hearly, hlate⟩ := ih horder
      exact ⟨a :: early, late, rfl, List.forall_mem_cons.mpr ⟨hbefore, hearly⟩, hlate⟩
    · have hlimit : limit ≤ a.1 := Int.not_lt.mp hbefore
      exact ⟨[], a :: as, rfl, nofun,
        List.forall_mem_cons.mpr ⟨hlimit, fun b hb => Int.le_trans hlimit (hle b hb)⟩⟩

/-- An upper bound on the looks of `Op.reserve`: the requests, the slices up to the deadline or to
the last request, and three. -/
def rounds (diary : Diary σ ι ω) (s : Surroundings σ ι ω) (w : World σ ω) : Nat :=
  let last := (diary.todo w.outside).getLast?.elim w.now (·.1)
  (diary.todo w.outside).length +
    Deadline.slices (((w.now.after? s.settings.blockTimeout).getD last).since w.now) + 3

theorem Orderly.le_last (h : diary.Orderly s tasks w) (ha : a ∈ diary.todo w.outside) :
    a.1 ≤ (diary.todo w.outside).getLast?.elim w.now (·.1) := by
  have : Std.Refl fun a b : Instant × Request σ ι => a.1 ≤ b.1 := ⟨fun a => Int.le_refl a.1.nanos⟩
  rw [List.getLast?_eq_some_getLast (List.ne_nil_of_mem ha)]
  exact h.order.rel_getLast ha

end Diary

namespace Op

/-- `Op.acquire` gets past the requests of `early`, none of which makes room, or is `Served` at the
first that does. -/
theorem exec_acquire_first (hs : s.Punctual diary) (h : diary.Orderly s tasks w)
    (hfull : ¬w.cache.HasRoom s.settings.maxSize) (htodo : diary.todo w.outside = early ++ late)
    (deadline : Deadline) (hopen : ∀ b ∈ early, deadline.Open b.1) (looks : Nat)
    (hlooks : ∀ b ∈ early, early.length + Deadline.slices (b.1.since w.now) + 3 ≤ looks) :
    diary.Vain s w early ∨
      ∃ first a rest r w', diary.todo w.outside = first ++ a :: rest ∧ a ∈ early ∧
        diary.Vain s w first ∧ (diary.kept s w (first ++ [a])).cache.HasRoom s.settings.maxSize ∧
        exec (acquire s deadline looks) w = (r, w') ∧ Served s (diary.kept s w (first ++ [a])) r w' ∧
        w'.now = a.1 := by
  refine (Diary.vain_or hfull early).imp id ?_
  rintro ⟨first, a, more, rfl, hvain, hroom⟩
  have ha : a ∈ first ++ a :: more := by simp
  rw [List.append_assoc] at htodo
  have hlooks' := hlooks a ha
  rw [List.length_append] at hlooks'
  obtain ⟨r, w', hend, hserved, hnow⟩ :=
    exec_acquire_room hs h htodo hvain hroom (hopen a ha) looks (by omega)
  exact ⟨first, a, more ++ late, r, w', htodo, ha, hvain, hroom, hend, hserved, hnow⟩

/-- `Op.reserve` in a cache without room is `Waited`. -/
theorem exec_reserve_waited (hs : s.Punctual diary) (h : diary.Orderly s tasks w)
    (hfull : ¬w.cache.HasRoom s.settings.maxSize) (hrounds : diary.rounds s w ≤ s.patience)
    {r : Except CacheError Unit} (hreserve : exec (reserve s) w = (r, w')) :
    Waited s diary w r w' := by
  rw [reserve, exec_bind_ok (exec_now _), Deadline.ofSettings] at hreserve
  rw [Diary.rounds] at hrounds
  split at hreserve
  · rename_i hblock
    cases hlimit : w.now.after? s.settings.blockTimeout with
    | some limit =>
      rw [hlimit] at hreserve hrounds
      dsimp only [Option.getD_some] at hreserve hrounds
      obtain ⟨early, late, htodo, hearly, hlate⟩ := h.split limit
      have hlength := congrArg List.length htodo
      rw [List.length_append] at hlength
      obtain hvain | ⟨first, a, rest, _, _, htodo', ha, hvain, hroom, hend, hserved, hnow⟩ :=
        exec_acquire_first hs h hfull htodo (.until limit) hearly s.patience fun b hb => by
            have := Deadline.slices_mono (Int.le_refl w.now.nanos) (Int.le_of_lt (hearly b hb))
            omega
      · rw [exec_acquire_vain hs h htodo hvain hearly hlate (Instant.le_of_after? hlimit) (by omega)]
          at hreserve
        cases hreserve
        exact .vain hblock hlimit htodo hvain hearly hlate
      · cases hend.symm.trans hreserve
        refine .room hblock htodo' hvain hroom ?_ hserved hnow
        rintro _ hlimit'
        obtain rfl := Option.some.inj (hlimit.symm.trans hlimit')
        exact hearly a ha
    | none =>
      rw [hlimit] at hreserve hrounds
      dsimp only [Option.getD_none] at hreserve hrounds
      obtain hvain | ⟨first, a, rest, _, _, htodo, -, hvain, hroom, hend, hserved, hnow⟩ :=
        exec_acquire_first hs h hfull (List.append_nil _).symm .unbounded (fun _ _ => trivial)
          s.patience fun b hb => by
            have := Deadline.slices_mono (Int.le_refl w.now.nanos) (h.le_last hb)
            omega
      · have hstalled := exec_acquire_endless hs h hvain s.patience
        rw [hreserve] at hstalled
        obtain rfl := hstalled
        exact .endless hblock hlimit hvain
      · cases hend.symm.trans hreserve
        refine .room hblock htodo hvain hroom (fun _ hlimit' => ?_) hserved hnow
        cases hlimit.symm.trans hlimit'
  · rename_i hblock
    obtain ⟨d, -, hx⟩ := h.sound
    obtain ⟨looks, hlooks⟩ : ∃ looks, s.patience = looks + 1 := ⟨s.patience - 1, by omega⟩
    rw [hlooks, acquire, exec_bind_error (exec_look_full hx hfull .never)] at hreserve
    cases hreserve
    exact .full (Bool.eq_false_iff.mpr hblock)

/-- After a failure the scene is still sound, with the same tasks. -/
theorem Waited.sound (hs : s.Prompt diary) (h : diary.Orderly s tasks w) {e : CacheError}
    (hw : Waited s diary w (.error e) w') (he : e ≠ .stalled) :
    ∃ d, d.tasks = tasks ∧ Sound s (w'.scene d) := by
  cases hw with
  | full => exact h.sound
  | room _ htodo _ _ _ hserved =>
    obtain ⟨horderly, htodo', -⟩ := h.kept hs htodo
    obtain ⟨d, hd, hx⟩ := (horderly.keep hs htodo').1.sound
    rw [Diary.kept_append] at hserved
    cases hserved with
    | refused hv hp =>
      obtain ⟨slot, state, hslot, hr⟩ := ready_of_victim? hx hv
      exact ⟨d, hd, (Interlude.evict hslot hr hp .nil).sound hs.discreet hx⟩
  | vain _ _ htodo =>
    obtain ⟨d, hd, hx⟩ := (h.kept hs htodo).1.sound
    exact ⟨d, hd, hx.same rfl rfl rfl rfl⟩
  | endless => exact absurd rfl he

/-- A key that was announced still has its placeholder. -/
theorem Waited.placeholder (hs : s.Prompt diary) (h : diary.Orderly s tasks w) {e : CacheError}
    (hw : Waited s diary w (.error e) w') (he : e ≠ .stalled) {w₀ : World σ ω}
    (hannounce : exec (announce key) w₀ = (.ok (), w)) :
    ∃ slot, w'.cache.slot? key = some slot ∧ slot.IsPlaceholder := by
  obtain ⟨d, hd, hx⟩ := h.sound
  obtain ⟨hcache, -⟩ := exec_announce_ok hannounce
  have hslot : w.cache.slot? key = some (Op.placeholder w₀) := hcache ▸ Cache.link_self _ _ _
  obtain ⟨-, hcomers⟩ := hx.placeholder_of_held hslot rfl
  obtain ⟨d', hd', hx'⟩ := hw.sound hs h he
  have hcomers' : (w'.scene d').comers key = 1 := by
    refine Eq.trans ?_ hcomers
    exact congrArg (Multiset.countP _) (hd'.trans hd.symm)
  obtain ⟨slot, hslot', hplaceholder, -⟩ :=
    (hx'.stands key).of_comer (by rw [hcomers']; exact Nat.one_ne_zero)
  exact ⟨slot, hslot', hplaceholder⟩

/-! ## The operations that wait -/

/-- `Op.create` is `Op.reserve` followed by `Op.introduce`. -/
theorem exec_create_reserve (args : ι) {r : Except CacheError Unit} :
    exec (reserve s) w = (r, w') →
      exec (create s args) w =
        match r with
        | .ok () => exec (introduce s args) w'
        | .error e => (.error e, w') := by
  intro h
  cases r with
  | ok => exact exec_bind_ok h
  | error e => exact exec_bind_error h

/-- `Op.get` of a key with a record and no slot is `Op.reserve` followed by `Op.load` and the rest
of the activation, or by `Op.withdraw`. -/
theorem exec_get_reserve {w₀ : World σ ω} (hp : s.patience ≠ 0) (hslot : w₀.cache.slot? key = none)
    (hannounce : exec (announce key) w₀ = (.ok (), w)) {r : Except CacheError Unit} :
    exec (reserve s) w = (r, w') →
      exec (get s key) w₀ =
        match r with
        | .ok () => exec (do settle s key; checkOut s key) w'
        | .error e =>
          (.error e, { w' with cache := w'.cache.unlink key, signals := w'.signals + 1 }) := by
  intro h
  rw [get_of_none hp hslot, activate, bind_assoc, exec_bind_ok hannounce, bind_assoc,
    exec_bind_ok (exec_attempt _ _), h]
  cases r with
  | ok => rfl
  | error e => rfl

end Op

/-- In every reachable state without room, and for any requests in `diary.todo` that need no room
themselves, `Op.reserve` ends as `Waited` says: served at the time of the first request before the
deadline that makes room; with `.waitedInVain` at `now = limit` exactly, everything else as the
others left it; at once if `blockOnFull = false`; never if there is no deadline and no such request.
`Op.create` and `Op.get` of a record do this and go on from there. As `diary.rounds` bounds the
looks, the search does come to this end. -/
theorem Run.punctuality {t t' : Traffic σ ι ω} {events : List (Traffic.Event σ ι)}
    (hs : s.Punctual diary) (ht : t.Fresh s) (h : Run s t events t')
    (hfull : ¬t'.world.cache.HasRoom s.settings.maxSize)
    (hdue : ∀ a ∈ diary.todo t'.world.outside, t'.world.now ≤ a.1)
    (horder : (diary.todo t'.world.outside).Pairwise (·.1 ≤ ·.1))
    (hfrugal : ∀ a ∈ diary.todo t'.world.outside, a.2.Frugal) :
    ∃ r w', exec (Op.reserve s) t'.world = (r, w') ∧
      (diary.rounds s t'.world ≤ s.patience → Op.Waited s diary t'.world r w') ∧
      (s.settings.blockOnFull = true → t'.world.now.after? s.settings.blockTimeout = none →
        ∀ millis, r ≠ .error (.waitedInVain millis)) ∧
      (∀ args, exec (Op.create s args) t'.world =
        match r with
        | .ok () => exec (Op.introduce s args) w'
        | .error e => (.error e, w')) ∧
      ∀ key w₀, w₀.cache.slot? key = none → exec (Op.announce key) w₀ = (.ok (), t'.world) →
        diary.rounds s t'.world ≤ s.patience →
        exec (Op.get s key) w₀ =
            (match r with
            | .ok () => exec (do Op.settle s key; Op.checkOut s key) w'
            | .error e =>
              (.error e, { w' with cache := w'.cache.unlink key, signals := w'.signals + 1 })) ∧
          ∀ e, r = .error e → e ≠ .stalled →
            ∃ slot, w'.cache.slot? key = some slot ∧ slot.IsPlaceholder := by
  have horderly : diary.Orderly s t'.tasks t'.world :=
    ⟨⟨t'.toDesk, rfl, h.sound hs.discreet ht⟩, hdue, horder, hfrugal⟩
  rcases hreserve : exec (Op.reserve s) t'.world with ⟨r, w'⟩
  have hwaited : diary.rounds s t'.world ≤ s.patience → Op.Waited s diary t'.world r w' := fun hrounds =>
    Op.exec_reserve_waited hs horderly hfull hrounds hreserve
  refine ⟨r, w', rfl, hwaited, fun hblock hlimit => ?_, fun args => Op.exec_create_reserve args hreserve,
    fun key w₀ hslot hannounce hrounds => ⟨?_, ?_⟩⟩
  · rw [Op.reserve, exec_bind_ok (Op.exec_now _), Deadline.ofSettings, if_pos hblock, hlimit] at hreserve
    exact Op.exec_acquire_patient hreserve
  · have hp : s.patience ≠ 0 := by
      rw [Diary.rounds] at hrounds
      omega
    exact Op.exec_get_reserve hp hslot hannounce hreserve
  · rintro e rfl he
    exact (hwaited hrounds).placeholder hs.toPrompt horderly he hannounce

/-! ## A cache in which sessions are given back -/

/-- What the callers of `planned` will do: `made` is the number of keys, `plan` the time, key and
state of each `finish` to come. -/
structure Planner where
  made : Nat := 0
  plan : List (Instant × Key × Bool) := []

/-- The requests of a `Planner`: its `finish`es, in order. -/
def Planner.agenda : Diary Bool Bool Planner where
  todo p := p.plan.map fun (time, key, state) => (time, .finish key state)
  cross p := { p with plan := p.plan.tail }
  todo_cross _ := List.map_tail

namespace Surroundings

/-- `maxSize := 1` and a `blockTimeout` of 100 ms, with a `wait` that does nothing. -/
def lonely : Surroundings Bool Bool Planner where
  settings := { maxSize := 1, blockOnFull := true, blockTimeout := .ofMillis 100 }
  codec := .flag
  lifecycle := { bean := { instantiate := fun _ state => pure (.ok state) } }
  freshKey := fun w =>
    (.ofNat w.outside.made, { w with outside := { w.outside with made := w.outside.made + 1 } })
  wait := fun _ => pure ()
  patience := 8

/-- `lonely` with the `wait` of `Planner.agenda`. -/
def planned : Surroundings Bool Bool Planner :=
  { lonely with
    wait := fun d w =>
      ((), Planner.agenda.sleep lonely (w.now.plus d) (Planner.agenda.todo w.outside) w) }

theorem planned_phase (phase : Phase) (key : Key) (state : Option Bool) (w : World Bool Planner) :
    (planned.lifecycle.runPhase phase key state).run w = ((state, none), w) := by
  cases phase <;> cases state <;> rfl

theorem planned_sleep (wake : Instant) (plan : List (Instant × Key × Bool)) (w : World Bool Planner) :
    let todo := plan.map fun (time, key, state) => (time, (.finish key state : Request Bool Bool))
    Planner.agenda.sleep lonely wake todo w = Planner.agenda.sleep planned wake todo w := by
  induction plan generalizing w with
  | nil => rfl
  | cons visit plan ih =>
    have hkeep : Planner.agenda.keep lonely w (visit.1, .finish visit.2.1 visit.2.2) =
        Planner.agenda.keep planned w (visit.1, .finish visit.2.1 visit.2.2) := rfl
    simp only [List.map_cons, Diary.sleep, hkeep, ih]

theorem planned_punctual : planned.Punctual Planner.agenda where
  discreet := {
    callback := fun phase key => List.forall_mem_singleton.mpr fun frame w => by
      rw [Lifecycle.beanMember_of_idle rfl]
      exact .refl w
    instantiate := fun _ _ w => .refl w
    freshKey := fun w => ⟨rfl, rfl, Int.le_refl w.now.nanos, id⟩
    lock := .refl }
  now phase key state w := by rw [planned_phase]
  signals phase key state w := by rw [planned_phase]
  todo phase key state w := by rw [planned_phase]
  lock _ := rfl
  wait d w := congrArg (Prod.mk ()) (planned_sleep _ w.outside.plan w)

end Surroundings

/-- An empty cache with one `finish` planned at 10 ms. -/
def Traffic.planned : Traffic Bool Bool Planner :=
  .opened .planned (.empty fun _ _ => none) ⟨0⟩ { plan := [(⟨10000000⟩, .ofNat 0, true)] }

/-- `Op.reserve` behind a session that is given back at 10 ms ends at 10 ms. -/
theorem Run.punctuality_of_planned :
    ∃ events t' r w', Run .planned .planned events t' ∧ ¬t'.world.cache.HasRoom 1 ∧
      exec (Op.reserve .planned) t'.world = (r, w') ∧ w'.now = ⟨10000000⟩ := by
  have h₁ := (Run.nil (s := .planned) (t := .planned)).thenCreate true (by decide) (fun hk => hk rfl)
  have h₂ := h₁.thenGet (.ofNat 0) rfl
  obtain ⟨r, w', hreserve, hwaited, -⟩ := Run.punctuality Surroundings.planned_punctual
    (Traffic.opened_fresh _ _ _ _) h₂ (Cache.not_hasRoom (by decide) (by decide)) (by decide)
    (by decide) (fun a ha => by
      obtain rfl := List.mem_singleton.mp ha
      trivial)
  refine ⟨_, _, r, w', h₂, Cache.not_hasRoom (by decide) (by decide), hreserve, ?_⟩
  cases hwaited (by decide) with
  | full hblock => exact nomatch hblock
  | @room early late a _ _ _ htodo _ _ _ _ hnow =>
    have ha := htodo ▸ List.mem_append_right early (List.mem_cons_self (a := a) (l := late))
    obtain rfl := List.mem_singleton.mp ha
    exact hnow
  | @vain early late limit _ hlimit htodo hvain _ hlate =>
    obtain rfl := Option.some.inj hlimit
    cases early with
    | nil =>
      obtain rfl : [(⟨10000000⟩, .finish (.ofNat 0) true)] = late := htodo
      exact absurd (hlate _ List.mem_cons_self) (by decide)
    | cons a early =>
      obtain rfl := (List.cons.inj htodo).1
      exact absurd (.inr ⟨.ofNat 0, _, rfl, rfl⟩) (hvain [_] ⟨early, rfl⟩)
  | endless _ hlimit => exact absurd hlimit (by decide)

end SessionCache
