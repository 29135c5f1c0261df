import SessionCache.Proofs.Command.Records
import SessionCache.Proofs.Expiry

/-!
# Records purged by their age

There are two ways to purge records by their age: the removal timeout of a cache, and a command that
is given an age in seconds. Both make a cutoff of the age, which can be too long for a span, or lead
out of the calendar. Then the one takes the earliest time instead, and the other gives up. In every
case the records that go are those whose age, in whole nanoseconds, is above the limit.

* `Instant.minus?_ofDuration?`, `Instant.before_eq`: what is subtracted in spans and in the calendar,
  in exact integers.
* `Instant.lt_before_iff`: what comes before a cutoff is what is older than the limit.
* `Store.PurgesOver`: a purge of the records whose age is above a limit.
* `Store.exec_purgeOlderThan_over`: the purge before such a cutoff is one.
* `Command.purge_by_age`: so are both of the ways, and they do the same.
-/

namespace SessionCache

/-! ## Cutoffs -/

namespace Instant

variable {t u : Instant}

/-- `t - d`, or `none` if that is before `earliest`; a `d` that is no `Span` is also one that leads
before it. -/
theorem minus?_ofDuration? (ht : t ≤ latest) (d : Duration) :
    (Span.ofDuration? d).bind t.minus? =
      if t.nanos - d.nanos < earliest.nanos then none else some ⟨t.nanos - d.nanos⟩ := by
  have hmost : mostSpanNanos = 9223372036854775807000000 := rfl
  have hlate : t.nanos ≤ 8210266876800 * 1000000000 - 1 := ht
  have hearly : earliest.nanos = -8334601228800 * 1000000000 := rfl
  by_cases hspan : d.nanos ≤ mostSpanNanos
  · have hbound : (⟨t.nanos - d.nanos⟩ : Instant) ≤ latest := by
      simp only [le_iff, latest]
      omega
    rw [Span.ofDuration?, dif_pos hspan, Option.bind_some, minus?]
    by_cases hfar : t.nanos - d.nanos < earliest.nanos
    · rw [if_pos hfar, if_neg fun h => Int.not_le.mpr hfar h.1]
    · rw [if_neg hfar, if_pos ⟨Int.not_lt.mp hfar, hbound⟩]
  · rw [Span.ofDuration?, dif_neg hspan, Option.bind_none, if_pos]
    omega

/-- `t.before d` is `t - d`, or `earliest` if that is later. -/
theorem before_eq (ht : t ≤ latest) (d : Duration) :
    t.before d = if t.nanos - d.nanos < earliest.nanos then earliest else ⟨t.nanos - d.nanos⟩ := by
  have hback := minus?_ofDuration? ht d
  rw [before]
  cases hspan : Span.ofDuration? d with
  | some s =>
    rw [hspan, Option.bind_some] at hback
    rw [Option.getD_some, hback]
    split <;> rfl
  | none =>
    -- The longest span, which is taken then, leads out of the calendar as well.
    have hlongest := minus?_ofDuration? ht ⟨mostSpanNanos⟩
    rw [Span.ofDuration?, dif_pos (Nat.le_refl _), Option.bind_some, if_pos] at hlongest
    · rw [hspan, Option.bind_none] at hback
      rw [Option.getD_none, Span.longest, hlongest, Option.getD_none]
      split at hback
      · rw [if_pos ‹_›]
      · cases hback
    · have hmost : mostSpanNanos = 9223372036854775807000000 := rfl
      have hlate : t.nanos ≤ 8210266876800 * 1000000000 - 1 := ht
      have hearly : earliest.nanos = -8334601228800 * 1000000000 := rfl
      dsimp only
      omega

/-- `u` is before the cutoff `t - d` if and only if `t - u > d`, also where the cutoff is cut off at
`earliest`. -/
theorem lt_before_iff (ht : t ≤ latest) (hu : earliest ≤ u) (d : Duration) :
    u < t.before d ↔ (d.nanos : Int) < t.nanos - u.nanos := by
  rw [le_iff] at hu
  rw [before_eq ht, lt_iff]
  split
  · omega
  · dsimp only
    omega

end Instant

/-! ## Ages -/

/-- `now - storedAt` in nanoseconds, negative if `storedAt` is to come. An instant within a leap
second counts as the end of the second before. -/
def RecordMeta.age (m : RecordMeta) (now : Instant) : Int := now.nanos - m.storedAt.nanos

namespace Store

variable {s s' : Store} {now cutoff : Instant} {limit : Nat} {metas : List RecordMeta}
  {r : Except CacheError (List Key)}

/-- Every listed `storedAt` is in the calendar. -/
def Dated (s : Store) : Prop :=
  ∀ metas, s.listing = .ok metas → ∀ m ∈ metas, Instant.earliest ≤ m.storedAt

/-- `key` is listed with an age above `limit`. -/
def ListsOver (s : Store) (now : Instant) (limit : Nat) (key : Key) : Prop :=
  ∃ metas m, s.listing = .ok metas ∧ m ∈ metas ∧ m.key = key ∧ (limit : Int) < m.age now

/-- The outcomes of a purge of what is older than `limit`: the keys with `ListsOver` are deleted,
and they are the answer; or the listing fails and nothing is deleted; or a deletion fails, and only
keys with `ListsOver` are deleted by then. -/
inductive PurgesOver (s s' : Store) (now : Instant) (limit : Nat) :
    Except CacheError (List Key) → Prop where
  | done (keys : List Key) (hnodup : keys.Nodup)
      (hkeys : ∀ key, key ∈ keys ↔ s.contents key ≠ none ∧ s.ListsOver now limit key)
      (hleft : ∀ key, s'.contents key = if key ∈ keys then none else s.contents key) :
      PurgesOver s s' now limit (.ok keys)
  | failed (e : StoreError)
      (hfails : s.Deletes → s.fault s.calls .list = none → ∃ e, s.listing = .error e)
      (hleft : ∀ key, s'.contents key ≠ s.contents key →
        s'.contents key = none ∧ s.ListsOver now limit key) :
      PurgesOver s s' now limit (.error (.store e))

/-- If no record is `ListsOver`, the contents stay. -/
theorem PurgesOver.contents_eq (h : s.PurgesOver s' now limit r)
    (hnone : ∀ key, ¬s.ListsOver now limit key) : s'.contents = s.contents := by
  funext key
  cases h with
  | done keys _ hkeys hleft =>
    rw [hleft, if_neg fun hmem => hnone key ((hkeys key).mp hmem).2]
  | failed e _ hleft =>
    by_contra hne
    exact hnone key (hleft key hne).2

/-- After `Store.purge` without failure, no listed key before `cutoff` has a record. -/
theorem exec_purge_none_left {keys : List Key} (h : exec (purge cutoff metas) s = (.ok keys, s')) :
    ∀ m ∈ metas, m.storedAt < cutoff → s'.contents m.key = none := by
  induction metas generalizing s keys with
  | nil => simp
  | cons m rest ih =>
    rw [purge] at h
    by_cases hold : m.storedAt < cutoff
    · rw [if_pos hold] at h
      obtain ⟨found, s₁, hdelete, h⟩ | ⟨_, -, ⟨⟩⟩ := exec_bind_cases h
      obtain ⟨others, s₂, hrest, h⟩ | ⟨_, -, ⟨⟩⟩ := exec_bind_cases h
      cases h
      refine List.forall_mem_cons.mpr ⟨fun _ => ?_, ih hrest⟩
      -- Once it is gone, the rest of the purge does not bring it back.
      obtain ⟨-, hcontents, -⟩ := delete_contents hdelete
      obtain ⟨gone, hgone, -⟩ := exec_purge_gone hrest
      by_cases hmem : m.key ∈ gone
      · exact ((hgone.mem_iff _).mp hmem).2
      · rw [hgone.others _ hmem, hcontents, Function.update_self]
    · rw [if_neg hold, exec_bind_ok (exec_pure false s)] at h
      obtain ⟨others, s₂, hrest, h⟩ | ⟨_, -, ⟨⟩⟩ := exec_bind_cases h
      cases h
      exact List.forall_mem_cons.mpr ⟨fun hbefore => absurd hbefore hold, ih hrest⟩

theorem exec_purgeOlderThan_none_left {keys : List Key} (hmetas : s.listing = .ok metas)
    (h : exec (purgeOlderThan cutoff) s = (.ok keys, s')) :
    ∀ m ∈ metas, m.storedAt < cutoff → s'.contents m.key = none := by
  cases hlist : s.fault s.calls .list with
  | some e =>
    have hfails : exec (lifted list) s = (.error (.store e), s.called s.backend) := by
      rw [exec_lifted, exec_list_eq, hlist]
      rfl
    rw [purgeOlderThan, records, exec_bind_error hfails] at h
    cases h
  | none =>
    rw [exec_purgeOlderThan_eq hlist, hmetas] at h
    dsimp only at h
    rcases hpurge : exec (purge cutoff metas) (s.called s.backend) with ⟨answer, s₂⟩
    rw [exec_lifted, hpurge] at h
    cases answer with
    | error e => cases h
    | ok keys =>
      cases h
      exact exec_purge_none_left hpurge

/-- If the listing passes and every deletion does, `purgeOlderThan` answers `.ok`. -/
theorem exec_purgeOlderThan_ok (hd : s.Deletes) (hlist : s.fault s.calls .list = none)
    (hmetas : s.listing = .ok metas) (cutoff : Instant) :
    ∃ keys s', exec (purgeOlderThan cutoff) s = (.ok keys, s') := by
  obtain ⟨keys, s', hpurge, -⟩ :=
    exec_purge_of_deletes (s := s.called s.backend) (hd.moves (.look .refl)) cutoff metas
  refine ⟨keys, s', ?_⟩
  rw [exec_purgeOlderThan_eq hlist, hmetas]
  dsimp only
  rw [exec_lifted, hpurge]
  rfl

/-- `purgeOlderThan (now.before d)` is a purge of what is older than `d`. -/
theorem exec_purgeOlderThan_over {d : Duration} (hnow : now ≤ .latest) (hs : s.Dated)
    (h : exec (purgeOlderThan (now.before d)) s = (r, s')) : PurgesOver s s' now d.nanos r := by
  have hage : ∀ {metas m}, s.listing = .ok metas → m ∈ metas →
      (m.storedAt < now.before d ↔ (d.nanos : Int) < m.age now) := fun hmetas hm =>
    Instant.lt_before_iff hnow (hs _ hmetas _ hm) d
  obtain ⟨keys, hgone, hold, rfl | ⟨e, rfl⟩⟩ := exec_purgeOlderThan_gone h
  · refine .done keys hgone.nodup (fun key => ⟨fun hmem => ?_, fun ⟨hthere, hover⟩ => ?_⟩) fun key => ?_
    · obtain ⟨metas, m, hmetas, hm, hkey, hbefore⟩ := hold key hmem
      exact ⟨((hgone.mem_iff key).mp hmem).1, metas, m, hmetas, hm, hkey, (hage hmetas hm).mp hbefore⟩
    · obtain ⟨metas, m, hmetas, hm, rfl, hlimit⟩ := hover
      refine (hgone.mem_iff m.key).mpr ⟨hthere, ?_⟩
      exact exec_purgeOlderThan_none_left hmetas h m hm ((hage hmetas hm).mpr hlimit)
    · split
      · exact ((hgone.mem_iff key).mp ‹_›).2
      · exact hgone.others key ‹_›
  · refine .failed e (fun hd hlist => ?_) fun key hne => ?_
    · cases hlisting : s.listing with
      | error e => exact ⟨e, rfl⟩
      | ok metas =>
        obtain ⟨keys, s₂, hok⟩ := exec_purgeOlderThan_ok hd hlist hlisting (now.before d)
        rw [hok] at h
        cases h
    · have hmem : key ∈ keys := by_contra fun hnot => hne (hgone.others key hnot)
      obtain ⟨metas, m, hmetas, hm, hkey, hbefore⟩ := hold key hmem
      exact ⟨((hgone.mem_iff key).mp hmem).2, metas, m, hmetas, hm, hkey, (hage hmetas hm).mp hbefore⟩

end Store

/-! ## Two ways to purge -/

/-- `Op.expirePassivated` with the removal timeout `timeout` at `now`: `r` is the answer of its
purge, and `store'` what it leaves. -/
def Op.ExpiresAs (store : Store) (now : Instant) (timeout : Duration)
    (r : Except CacheError (List Key)) (store' : Store) : Prop :=
  ∀ {σ ι ω : Type} (s : Surroundings σ ι ω) (w : World σ ω),
    s.settings.removalTimeout = some timeout → w.store = store → w.now = now →
    exec (expirePassivated s) w = (r.map List.length,
      { w with
        store := store'
        cache := match r with
          | .ok keys => w.cache.countExpired keys.length
          | .error _ => w.cache })

namespace Command

variable {store : Store} {now : Instant}

theorem expiresAs_purge (store : Store) (now : Instant) (timeout : Duration) :
    Op.ExpiresAs store now timeout (exec (Store.purgeOlderThan (now.before timeout)) store).1
      (exec (Store.purgeOlderThan (now.before timeout)) store).2 := by
  rintro σ ι ω s w htimeout rfl rfl
  rw [Op.expirePassivated, htimeout]
  dsimp only
  rw [exec_bind_ok (Op.exec_now w), exec_bind, Op.exec_onStore]
  rcases exec (Store.purgeOlderThan (w.now.before timeout)) w.store with ⟨e | keys, store'⟩
  · rfl
  · rfl

/-- `cutoff?` is `now - seconds`, in exact integers, or `none` if that is before `earliest`. For the
same number of seconds, `Instant.before` gives the same time. -/
theorem cutoff?_eq (hnow : now ≤ .latest) (seconds : Nat) :
    cutoff? now seconds =
      if now.nanos - (seconds * 1000000000 : Nat) < Instant.earliest.nanos then none
      else some (now.before (.ofSeconds seconds)) := by
  rw [Instant.before_eq hnow, cutoff?]
  refine (Instant.minus?_ofDuration? hnow (.ofSeconds seconds)).trans ?_
  rw [Duration.ofSeconds]
  split <;> rfl

/-- `Op.expirePassivated` and the purge of the command line delete exactly the records with `now -
storedAt > limit`, for every `Duration` and every number of seconds, unless the store fails. For `n`
seconds the command does to the store what a removal timeout of `n` seconds does; if `now - n` is
out of the calendar, it says so, and neither deletes anything. -/
theorem purge_by_age (hnow : now ≤ .latest) (hstore : store.Dated) :
    (∀ timeout, ∃ r store', Op.ExpiresAs store now timeout r store' ∧
      store.PurgesOver store' now timeout.nanos r) ∧
    ∀ json resolved seconds site site' opened,
      exec (Action.openStore resolved) site = (.ok opened, site') →
      opened.store = store → site'.now = now →
      ∃ r store', Op.ExpiresAs store now (.ofSeconds seconds) r store' ∧
        store.PurgesOver store' now (seconds * 1000000000) r ∧
        ((∃ cutoff, Instant.earliest.nanos ≤ now.nanos - (seconds * 1000000000 : Nat) ∧
            cutoff.nanos = now.nanos - (seconds * 1000000000 : Nat) ∧
            exec (purgeRecords json resolved seconds) site =
              exec (conclude opened .purge (purgeReport json cutoff) (r, store')) site') ∨
          now.nanos - (seconds * 1000000000 : Nat) < Instant.earliest.nanos ∧
            exec (purgeRecords json resolved seconds) site = (.error (.age seconds), site') ∧
            (∀ key, ¬store.ListsOver now (seconds * 1000000000) key) ∧
            store'.contents = store.contents) := by
  have hpurges (timeout : Duration) :
      store.PurgesOver (exec (Store.purgeOlderThan (now.before timeout)) store).2 now timeout.nanos
        (exec (Store.purgeOlderThan (now.before timeout)) store).1 :=
    Store.exec_purgeOlderThan_over hnow hstore rfl
  refine ⟨fun timeout => ⟨_, _, expiresAs_purge store now timeout, hpurges timeout⟩, ?_⟩
  rintro json resolved seconds site site' opened hopen rfl rfl
  refine ⟨_, _, expiresAs_purge opened.store site'.now (.ofSeconds seconds),
    hpurges (.ofSeconds seconds), ?_⟩
  rw [exec_purgeRecords hopen, cutoff?_eq hnow]
  by_cases hfar : site'.now.nanos - (seconds * 1000000000 : Nat) < Instant.earliest.nanos
  · have hnone : ∀ key, ¬opened.store.ListsOver site'.now (seconds * 1000000000) key := by
      rintro key ⟨metas, m, hmetas, hm, -, hover⟩
      have hdated := hstore metas hmetas m hm
      rw [Instant.le_iff] at hdated
      rw [RecordMeta.age] at hover
      omega
    rw [if_pos hfar]
    exact .inr ⟨hfar, rfl, hnone, (hpurges (.ofSeconds seconds)).contents_eq hnone⟩
  · rw [if_neg hfar]
    refine .inl ⟨_, Int.not_lt.mp hfar, ?_, rfl⟩
    rw [Instant.before_eq hnow, Duration.ofSeconds, if_neg hfar]

/-- A record written at 0 and one written at 15 s. -/
def oldAndNew : Entries := [(.ofNat 7, ⟨#[1]⟩, ⟨0⟩), (.ofNat 8, ⟨#[2]⟩, ⟨15000000000⟩)]

/-- A site at 20 s with `oldAndNew` in its directory. -/
def recordSite : Site where
  files := { entries :=
    [(["d"], .directory 40 ⟨0⟩),
      (["d", Folder.recordName (.ofNat 7)], .file ⟨#[1]⟩ ⟨0⟩),
      (["d", Folder.recordName (.ofNat 8)], .file ⟨#[2]⟩ ⟨15000000000⟩)] }
  workingDirectory := []
  now := ⟨20000000000⟩
  user := {}
  seed := 0
  choices _ _ _ _ := { session := 0, item := { sku := "sku-0", quantity := 1 }, roll := 0 }
  keys := .ofNat
  databases := { toBytes _ := .empty, ofBytes? _ := none }

/-- The configuration that names this directory. -/
def recordConfig : Resolved where
  maxSize := 1
  idleTimeout := none
  blockOnFull := false
  blockTimeout := .ofMillis 1000
  sweepInterval := .ofMillis 1000
  removalTimeout := none
  store := .file
  path := some "/d"
  level := "info"
  file := none

/-- The store that `openStore` finds there. -/
def recordStore : Opened where
  store := storeOver (.directory "/d" (.ofEntries oldAndNew))
  keeping := .directory ["d"]

theorem listing_recordStore : recordStore.store.listing =
    .ok (Store.sorted recordStore.store.precedes (oldAndNew.map Entries.metaOf)) := by
  have hlist : recordStore.store.backend.list = .ok (oldAndNew.map Entries.metaOf) :=
    Directory.list_ofEntries oldAndNew (by decide : "/d" ≠ "")
  rw [Store.listing, hlist]
  rfl

theorem mem_of_listing_recordStore {metas : List RecordMeta}
    (h : recordStore.store.listing = .ok metas) (m : RecordMeta) :
    m ∈ metas ↔ m ∈ oldAndNew.map Entries.metaOf := by
  rw [listing_recordStore] at h
  cases h
  exact Store.mem_sorted _ _ m

/-- With `n = 10` the first record is deleted and the second stays. With the greatest `n` there is
no cutoff, and a cache with that removal timeout deletes nothing. -/
theorem purge_by_age_of_two :
    (∃ cutoff keys store', cutoff.nanos = 10000000000 ∧
      exec (purgeRecords false recordConfig 10) recordSite =
        exec (conclude recordStore .purge (purgeReport false cutoff) (.ok keys, store')) recordSite ∧
      store'.contents (.ofNat 7) = none ∧ store'.contents (.ofNat 8) = some ⟨#[2]⟩) ∧
    exec (purgeRecords false recordConfig (twoTo 63 - 1)) recordSite =
      (.error (.age (twoTo 63 - 1)), recordSite) ∧
    ∃ r store', Op.ExpiresAs recordStore.store recordSite.now (.ofSeconds (twoTo 63 - 1)) r store' ∧
      store'.contents = recordStore.store.contents := by
  have hopen : exec (Action.openStore recordConfig) recordSite = (.ok recordStore, recordSite) := rfl
  have hdated : recordStore.store.Dated := fun metas hmetas m hm =>
    (by decide : ∀ m ∈ oldAndNew.map Entries.metaOf, Instant.earliest ≤ m.storedAt) m
      ((mem_of_listing_recordStore hmetas m).mp hm)
  have hdeletes : recordStore.store.Deletes :=
    Store.deletes_of_holds (fun _ _ => rfl) (show Backend.Holds _ oldAndNew from ⟨by decide, rfl⟩)
  have hpurge := (purge_by_age (by decide : recordSite.now ≤ .latest) hdated).2 false recordConfig
  refine ⟨?_, ?_⟩
  · obtain ⟨r, store', -, hover, ⟨cutoff, -, hcutoff, hrun⟩ | ⟨hfar, -⟩⟩ :=
      hpurge 10 recordSite recordSite recordStore hopen rfl rfl
    · cases hover with
      | done keys _ hkeys hleft =>
        have hold : Key.ofNat 7 ∈ keys := by
          refine (hkeys _).mpr ⟨by decide, _, Entries.metaOf (.ofNat 7, ⟨#[1]⟩, ⟨0⟩),
            listing_recordStore, (mem_of_listing_recordStore listing_recordStore _).mpr ?_, rfl, ?_⟩
          · exact List.mem_cons_self
          · decide
        have hnew : Key.ofNat 8 ∉ keys := fun hmem => by
          obtain ⟨-, metas, m, hmetas, hm, hkey, hage⟩ := (hkeys _).mp hmem
          have hyoung : ∀ m ∈ oldAndNew.map Entries.metaOf, m.key = .ofNat 8 →
              ¬((10 * 1000000000 : Nat) : Int) < m.age recordSite.now := by decide
          exact hyoung m ((mem_of_listing_recordStore hmetas m).mp hm) hkey hage
        refine ⟨cutoff, keys, store', by rw [hcutoff]; rfl, hrun, ?_, ?_⟩
        · rw [hleft, if_pos hold]
        · rw [hleft, if_neg hnew]
          rfl
      | failed e hfails _ =>
        obtain ⟨e, he⟩ := hfails hdeletes rfl
        rw [listing_recordStore] at he
        cases he
    · exact absurd hfar (by decide)
  · obtain ⟨r, store', hexpires, -, ⟨cutoff, hnear, -⟩ | ⟨-, hage, -, hsame⟩⟩ :=
      hpurge (twoTo 63 - 1) recordSite recordSite recordStore hopen rfl rfl
    · exact absurd hnear (by decide)
    · exact ⟨hage, r, store', hexpires, hsame⟩

end Command

end SessionCache
