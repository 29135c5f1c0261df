import Mathlib.Data.List.Induction
import SessionCache.Proofs.Cache.Usage

/-!
# What is tracked, and what was told

A tracker of use keeps one entry for each key, and changes it with each thing it is told. Here the
entry is compared with all that the tracker was ever told: it shows the last mark of the key, unless
the key was forgotten since.

* `Usage.History`: what a tracker was told, and when.
* `Usage.History.Tracks`, `Usage.History.LastMark`: what a history says of a key.
* `Usage.Agrees.heed`: one more thing told, to the tracker and to the history.
* `Usage.recollection`: the answers of a tracker are those of its history.
-/

namespace SessionCache.Usage

/-! ## Histories -/

/-- The calls that change a `Usage`. -/
inductive Notice where
  | inUse (key : Key)
  | idle (key : Key)
  | forget (key : Key)
  deriving DecidableEq

namespace Notice

/-- The key of the call. -/
def key : Notice → Key
  | .inUse key | .idle key | .forget key => key

/-- The notice is a `use` or an `idle` of `key`. -/
def Marks (key : Key) (notice : Notice) : Prop := notice = .inUse key ∨ notice = .idle key

theorem Marks.key_eq {key : Key} {notice : Notice} (h : notice.Marks key) : notice.key = key := by
  obtain rfl | rfl := h <;> rfl

end Notice

/-- The calls so far with their times, oldest first. The times need not be in order. -/
abbrev History := List (Instant × Notice)

namespace History

variable {history : History} {key other : Key} {time now : Instant} {notice mark : Notice}

/-- There is a call with `told`, and none with `revoked` after it. -/
def Lasts (history : History) (told revoked : Instant × Notice → Prop) : Prop :=
  ∃ earlier e later, history = earlier ++ e :: later ∧ told e ∧ ∀ x ∈ later, ¬revoked x

/-- A mark of `key` without a `forget` since. -/
def Tracks (history : History) (key : Key) : Prop :=
  history.Lasts (fun e => e.2.Marks key) fun e => e.2 = .forget key

/-- The mark of `key` that neither another mark nor a `forget` followed. -/
def LastMark (history : History) (key : Key) (time : Instant) (mark : Notice) : Prop :=
  mark.Marks key ∧ history.Lasts (fun e => e = (time, mark)) fun e => e.2.Marks key

theorem not_lasts_nil (told revoked : Instant × Notice → Prop) :
    ¬Lasts [] told revoked := by
  rintro ⟨earlier, e, later, h, -⟩
  exact absurd h.symm (List.append_ne_nil_of_right_ne_nil _ (List.cons_ne_nil _ _))

/-- How `Lasts` goes on with one more call. -/
theorem lasts_concat (told revoked : Instant × Notice → Prop) (x : Instant × Notice) :
    Lasts (history ++ [x]) told revoked ↔ told x ∨ history.Lasts told revoked ∧ ¬revoked x := by
  constructor
  · rintro ⟨earlier, e, later, h, he, hlater⟩
    obtain rfl | ⟨before, last, rfl⟩ := List.eq_nil_or_concat later
    · obtain ⟨-, heq⟩ := List.append_inj' h rfl
      obtain rfl := List.singleton_inj.mp heq
      exact .inl he
    · rw [List.concat_eq_append] at h hlater
      rw [← List.cons_append, ← List.append_assoc] at h
      obtain ⟨rfl, heq⟩ := List.append_inj' h rfl
      obtain rfl := List.singleton_inj.mp heq
      exact .inr ⟨⟨earlier, e, before, rfl, he, fun y hy => hlater y (List.mem_append_left _ hy)⟩,
        hlater x (by simp)⟩
  · rintro (hx | ⟨⟨earlier, e, later, rfl, he, hlater⟩, hx⟩)
    · exact ⟨history, x, [], rfl, hx, nofun⟩
    · refine ⟨earlier, e, later ++ [x], by simp, he, fun y hy => ?_⟩
      obtain hy | hy := List.mem_append.mp hy
      · exact hlater y hy
      · exact List.mem_singleton.mp hy ▸ hx

theorem tracks_concat :
    Tracks (history ++ [(time, notice)]) key ↔
      notice.Marks key ∨ history.Tracks key ∧ notice ≠ .forget key :=
  lasts_concat _ _ _

theorem lastMark_concat :
    LastMark (history ++ [(now, notice)]) key time mark ↔
      mark.Marks key ∧ (now, notice) = (time, mark) ∨
        history.LastMark key time mark ∧ ¬notice.Marks key := by
  rw [LastMark, lasts_concat, LastMark, and_or_left, and_assoc]

/-- `LastMark` is unique. -/
theorem LastMark.unique {time' : Instant} {mark' : Notice} (h : history.LastMark key time mark)
    (h' : history.LastMark key time' mark') : time = time' ∧ mark = mark' := by
  induction history using List.reverseRecOn with
  | nil => exact absurd h.2 (not_lasts_nil _ _)
  | append_singleton history x ih =>
    obtain ⟨now, notice⟩ := x
    obtain ⟨hm, heq⟩ | ⟨h, hno⟩ := lastMark_concat.mp h <;>
      obtain ⟨hm', heq'⟩ | ⟨h', hno'⟩ := lastMark_concat.mp h'
    · exact Prod.mk.inj (heq.symm.trans heq')
    · cases heq
      exact absurd hm hno'
    · cases heq'
      exact absurd hm' hno
    · exact ih h h'

end History

/-! ## Trackers -/

variable {u : Usage} {history : History} {key other : Key} {time now : Instant} {notice : Notice}

/-- The `Usage` after one more call. -/
def heed (u : Usage) (now : Instant) : Notice → Usage
  | .inUse key => u.markInUse now key
  | .idle key => u.markIdle now key
  | .forget key => u.forget key

/-- The `Usage` after a whole history. -/
def told (timeout : Option Duration) (history : History) : Usage :=
  history.foldl (fun u e => u.heed e.1 e.2) { idleTimeout := timeout }

@[simp] theorem idleTimeout_heed (u : Usage) (now : Instant) (notice : Notice) :
    (u.heed now notice).idleTimeout = u.idleTimeout := by
  cases notice with
  | inUse key => exact idleTimeout_markInUse u now key
  | idle | forget => rfl

theorem Distinct.heed (hu : u.Distinct) (now : Instant) (notice : Notice) :
    (u.heed now notice).Distinct := by
  cases notice with
  | inUse key => exact hu.markInUse now key
  | idle key => exact hu.markIdle now key
  | forget key => exact hu.forget key

/-- The `UsageEntry` of `key` is its `LastMark`; there is none if the key is not tracked. -/
inductive Agrees (history : History) (key : Key) : Option UsageEntry → Prop where
  | untracked (htracks : ¬history.Tracks key) : Agrees history key none
  | inUse {since time : Instant} (htracks : history.Tracks key)
      (hmark : history.LastMark key time (.inUse key)) : Agrees history key (some ⟨key, true, since⟩)
  | idle {since : Instant} (htracks : history.Tracks key)
      (hmark : history.LastMark key since (.idle key)) : Agrees history key (some ⟨key, false, since⟩)

/-- A call for `notice.key` leaves the entries of other keys. -/
theorem find?_heed_of_ne (u : Usage) (now : Instant) (h : other ≠ notice.key) :
    (u.heed now notice).find? other = u.find? other := by
  cases notice with
  | inUse key => exact find?_markInUse_of_ne u now h
  | idle key => simp [heed, show other ≠ key from h]
  | forget key => simp [heed, show other ≠ key from h]

theorem Agrees.of_ne {e? : Option UsageEntry} (h : Agrees history other e?)
    (hother : other ≠ notice.key) : Agrees (history ++ [(now, notice)]) other e? := by
  have hmarks : ¬notice.Marks other := fun hm => hother hm.key_eq.symm
  have hforgets : notice ≠ .forget other := by
    rintro rfl
    exact hother rfl
  cases h with
  | untracked htracks =>
    exact .untracked fun ht => (History.tracks_concat.mp ht).elim hmarks fun h => htracks h.1
  | inUse htracks hmark =>
    exact .inUse (History.tracks_concat.mpr (.inr ⟨htracks, hforgets⟩))
      (History.lastMark_concat.mpr (.inr ⟨hmark, hmarks⟩))
  | idle htracks hmark =>
    exact .idle (History.tracks_concat.mpr (.inr ⟨htracks, hforgets⟩))
      (History.lastMark_concat.mpr (.inr ⟨hmark, hmarks⟩))

/-- After a call for `notice.key`, its entry is in agreement with the history, whatever it was
before. -/
theorem Agrees.of_notice (u : Usage) (history : History) (now : Instant) (notice : Notice) :
    Agrees (history ++ [(now, notice)]) notice.key ((u.heed now notice).find? notice.key) := by
  cases notice with
  | inUse key =>
    obtain ⟨since, he⟩ := find?_markInUse_self u now key
    rw [Usage.heed, Notice.key, he]
    exact .inUse (History.tracks_concat.mpr (.inl (.inl rfl)))
      (History.lastMark_concat.mpr (.inl ⟨.inl rfl, rfl⟩))
  | idle key =>
    rw [Usage.heed, Notice.key, find?_markIdle, if_pos rfl]
    exact .idle (History.tracks_concat.mpr (.inl (.inr rfl)))
      (History.lastMark_concat.mpr (.inl ⟨.inr rfl, rfl⟩))
  | forget key =>
    rw [Usage.heed, Notice.key, find?_forget, if_pos rfl]
    refine .untracked fun ht => ?_
    obtain ⟨⟨⟩⟩ | ⟨⟨⟩⟩ | ⟨-, hne⟩ := or_assoc.mp (History.tracks_concat.mp ht)
    exact hne rfl

theorem Agrees.heed (h : ∀ key, Agrees history key (u.find? key)) (now : Instant)
    (notice : Notice) (key : Key) :
    Agrees (history ++ [(now, notice)]) key ((u.heed now notice).find? key) := by
  by_cases hkey : key = notice.key
  · subst hkey
    exact .of_notice u history now notice
  · rw [find?_heed_of_ne u now hkey]
    exact (h key).of_ne hkey

theorem told_concat (timeout : Option Duration) (history : History) (now : Instant)
    (notice : Notice) : told timeout (history ++ [(now, notice)]) =
      (told timeout history).heed now notice :=
  List.foldl_concat _ _ _ _

theorem idleTimeout_told (timeout : Option Duration) (history : History) :
    (told timeout history).idleTimeout = timeout := by
  induction history using List.reverseRecOn with
  | nil => rfl
  | append_singleton history x ih => rw [told_concat, idleTimeout_heed, ih]

theorem Distinct.told (timeout : Option Duration) (history : History) :
    (told timeout history).Distinct := by
  induction history using List.reverseRecOn with
  | nil => exact List.nodup_nil
  | append_singleton history x ih => exact told_concat timeout history _ _ ▸ ih.heed x.1 x.2

theorem Agrees.told (timeout : Option Duration) (history : History) (key : Key) :
    Agrees history key ((told timeout history).find? key) := by
  induction history using List.reverseRecOn generalizing key with
  | nil => exact .untracked (History.not_lasts_nil _ _)
  | append_singleton history x ih => exact told_concat timeout history _ _ ▸ heed ih x.1 x.2 key

/-! ## What a tracker answers -/

/-- `isExpired` in exact integers: `now - idleSince > idleTimeout`, never if `now` is before
`idleSince`. -/
theorem isExpired_iff (u : Usage) (key : Key) (now : Instant) :
    u.isExpired key now = true ↔
      ∃ limit e, u.idleTimeout = some limit ∧ u.find? key = some e ∧ e.inUse = false ∧
        (limit.nanos : Int) < now.nanos - e.idleSince.nanos := by
  unfold isExpired
  cases u.idleTimeout with
  | none => simp
  | some limit =>
    cases u.find? key with
    | none => simp
    | some e =>
      have hlong : limit < now.since e.idleSince ↔
          (limit.nanos : Int) < now.nanos - e.idleSince.nanos := by
        simp only [Duration.lt_iff, Instant.since]
        omega
      simp [overdue, hlong]

/-- `sweep` lists exactly the expired keys. -/
theorem mem_sweep_iff (hu : u.Distinct) (now : Instant) (key : Key) :
    key ∈ u.sweep now ↔ u.isExpired key now = true := by
  cases ht : u.idleTimeout with
  | none => simp [sweep, isExpired, ht]
  | some limit =>
    rw [mem_sweep hu ht]
    cases he : u.find? key <;> simp [isExpired, ht, he, overdue]

/-- `sweep` only grows with time. -/
theorem sweep_mono (hu : u.Distinct) {later : Instant} (h : now ≤ later) :
    u.sweep now ⊆ u.sweep later := by
  intro key hkey
  rw [mem_sweep_iff hu, isExpired_iff] at hkey ⊢
  obtain ⟨limit, e, hlimit, he, hfree, hlong⟩ := hkey
  have hlater : now.nanos ≤ later.nanos := h
  exact ⟨limit, e, hlimit, he, hfree, by omega⟩

namespace Agrees

variable {e? : Option UsageEntry}

theorem isSome_iff (h : Agrees history key e?) : e?.isSome = true ↔ history.Tracks key := by
  cases h with
  | untracked htracks => simpa using htracks
  | inUse htracks | idle htracks => simpa using htracks

theorem inUse_iff (h : Agrees history key e?) :
    (∃ e, e? = some e ∧ e.inUse = true) ↔
      history.Tracks key ∧ ∃ time, history.LastMark key time (.inUse key) := by
  cases h with
  | untracked htracks => simp [htracks]
  | @inUse _ time htracks hmark => exact iff_of_true ⟨_, rfl, rfl⟩ ⟨htracks, time, hmark⟩
  | idle _ hmark =>
    refine iff_of_false ?_ fun ⟨_, time, hmark'⟩ => nomatch (hmark.unique hmark').2
    rintro ⟨e, he, hinUse⟩
    obtain rfl := Option.some.inj he
    exact nomatch hinUse

theorem idle_iff (h : Agrees history key e?) (time : Instant) :
    (∃ e, e? = some e ∧ e.inUse = false ∧ e.idleSince = time) ↔
      history.Tracks key ∧ history.LastMark key time (.idle key) := by
  cases h with
  | untracked htracks => simp [htracks]
  | inUse _ hmark =>
    refine iff_of_false ?_ fun ⟨_, hmark'⟩ => nomatch (hmark.unique hmark').2
    rintro ⟨e, he, hidle, -⟩
    obtain rfl := Option.some.inj he
    exact nomatch hidle
  | idle htracks hmark =>
    constructor
    · rintro ⟨e, he, -, rfl⟩
      obtain rfl := Option.some.inj he
      exact ⟨htracks, hmark⟩
    · rintro ⟨-, hmark'⟩
      exact ⟨_, rfl, rfl, (hmark.unique hmark').1⟩

theorem isInUse_iff (h : Agrees history key (u.find? key)) :
    u.isInUse key = true ↔
      history.Tracks key ∧ ∃ time, history.LastMark key time (.inUse key) := by
  rw [← h.inUse_iff, isInUse, Option.any_eq_true]

theorem isExpired_iff (h : Agrees history key (u.find? key)) (now : Instant) :
    u.isExpired key now = true ↔
      ∃ limit time, u.idleTimeout = some limit ∧
        (history.Tracks key ∧ history.LastMark key time (.idle key)) ∧
        (limit.nanos : Int) < now.nanos - time.nanos := by
  simp only [← h.idle_iff, Usage.isExpired_iff]
  constructor
  · rintro ⟨limit, e, hlimit, he, hidle, hlong⟩
    exact ⟨limit, e.idleSince, hlimit, ⟨e, he, hidle, rfl⟩, hlong⟩
  · rintro ⟨limit, _, hlimit, ⟨e, he, hidle, rfl⟩, hlong⟩
    exact ⟨limit, e, hlimit, he, hidle, hlong⟩

variable (hu : u.Distinct) (h : ∀ key, Agrees history key (u.find? key))

include hu h

/-- `sweep` lists keys in the order of their `LastMark`s. -/
theorem pairwise_sweep (now : Instant) :
    (u.sweep now).Pairwise fun first second => ∀ time time',
      history.LastMark first time (.idle first) → history.LastMark second time' (.idle second) →
        time ≤ time' := by
  have hidle {key : Key} {time : Instant} (hkey : key ∈ u.sweep now)
      (hmark : history.LastMark key time (.idle key)) :
      ∃ e, u.find? key = some e ∧ e.idleSince = time := by
    rw [mem_sweep_iff hu, (h key).isExpired_iff] at hkey
    obtain ⟨-, -, -, ⟨htracks, -⟩, -⟩ := hkey
    obtain ⟨e, he, -, htime⟩ := ((h key).idle_iff time).mpr ⟨htracks, hmark⟩
    exact ⟨e, he, htime⟩
  refine (Usage.pairwise_sweep hu now).imp_of_mem ?_
  intro first second hfirst hsecond hsorted time time' hmark hmark'
  obtain ⟨e, he, rfl⟩ := hidle hfirst hmark
  obtain ⟨e', he', rfl⟩ := hidle hsecond hmark'
  exact hsorted e e' he he'

theorem size_eq : u.size = { key | history.Tracks key }.ncard := by
  have hkeys : { key | history.Tracks key } = { key | ∃ e, u.find? key = some e ∧ true = true } :=
    Set.ext fun key => by simpa [Option.isSome_iff_exists] using (h key).isSome_iff.symm
  rw [hkeys, ncard_tracked hu fun _ => true, List.countP_true]
  rfl

theorem inUseCount_eq :
    u.inUseCount =
      { key | history.Tracks key ∧ ∃ time, history.LastMark key time (.inUse key) }.ncard := by
  simp only [← (h _).inUse_iff]
  exact (ncard_tracked hu (·.inUse)).symm

end Agrees

/-- The answers of `u` in terms of `history`. -/
structure Reflects (u : Usage) (timeout : Option Duration) (history : History) : Prop where
  tracked : ∀ key, (u.find? key).isSome = true ↔ history.Tracks key
  inUse : ∀ key, u.isInUse key = true ↔
    history.Tracks key ∧ ∃ time, history.LastMark key time (.inUse key)
  /-- `key` is expired if and only if its `LastMark` is an `idle` at a time with `now - time >
  timeout`. -/
  expired : ∀ key now, u.isExpired key now = true ↔
    ∃ limit time, timeout = some limit ∧
      (history.Tracks key ∧ history.LastMark key time (.idle key)) ∧
      (limit.nanos : Int) < now.nanos - time.nanos
  swept : ∀ now key, key ∈ u.sweep now ↔ u.isExpired key now = true
  once : ∀ now, (u.sweep now).Nodup
  inOrder : ∀ now, (u.sweep now).Pairwise fun first second => ∀ time time',
    history.LastMark first time (.idle first) → history.LastMark second time' (.idle second) →
      time ≤ time'
  later : ∀ now later, now ≤ later → u.sweep now ⊆ u.sweep later
  counts : u.idleCount + u.inUseCount = u.size
  /-- `size` is the number of keys with `Tracks`, `idleCount` that of the idle ones. -/
  size : u.size = { key | history.Tracks key }.ncard
  inUseCount : u.inUseCount = { key | history.Tracks key ∧
    ∃ time, history.LastMark key time (.inUse key) }.ncard

/-- A `Usage` that was told any history answers as that history says. -/
theorem recollection (timeout : Option Duration) (history : History) :
    (told timeout history).Reflects timeout history := by
  have hagrees := Agrees.told timeout history
  have hdistinct := Distinct.told timeout history
  exact {
    tracked := fun key => (hagrees key).isSome_iff
    inUse := fun key => (hagrees key).isInUse_iff
    expired := fun key now => by
      rw [(hagrees key).isExpired_iff, idleTimeout_told]
    swept := mem_sweep_iff hdistinct
    once := nodup_sweep hdistinct
    inOrder := Agrees.pairwise_sweep hdistinct hagrees
    later := fun _ _ => sweep_mono hdistinct
    counts := idleCount_add_inUseCount _
    size := Agrees.size_eq hdistinct hagrees
    inUseCount := Agrees.inUseCount_eq hdistinct hagrees }

end SessionCache.Usage
