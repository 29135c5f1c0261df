import SessionCache.Proofs.Store.Agreement
import SessionCache.Proofs.Store.Calls

/-!
# Purging

A purge goes through a listing and deletes the records written strictly before a time
(`Store.older`), in the order of the listing. Over a backend that is one of the three kinds with
records and nothing else, this is what is left.

* `Store.exec_purge_of_holds`: a purge deletes the older records up to the first that the gate
  refuses to delete.
* `Entries.without_older`: without the older records, the others are as they were.
* `Store.purgeOlderThan_exact`: the purge of a backend after any calls, of its records once more,
  and of what another purge left.
* `Store.purgeOlderThan_stuck`: a table with a record of the year 10000 is not purged.
-/

namespace SessionCache

/-- The records with `storedAt < cutoff`. -/
def Store.older (cutoff : Instant) (metas : List RecordMeta) : List RecordMeta :=
  metas.filter (·.storedAt < cutoff)

namespace Store

variable {cutoff : Instant} {metas : List RecordMeta}

theorem older_cons_of_lt {x : RecordMeta} (h : x.storedAt < cutoff) (rest : List RecordMeta) :
    older cutoff (x :: rest) = x :: older cutoff rest := List.filter_cons_of_pos (by simpa using h)

theorem older_cons_of_not_lt {x : RecordMeta} (h : ¬x.storedAt < cutoff) (rest : List RecordMeta) :
    older cutoff (x :: rest) = older cutoff rest := List.filter_cons_of_neg (by simpa using h)

/-- If no key occurs twice, `older` is decided by the key. -/
theorem key_mem_older (hnodup : (metas.map (·.key)).Nodup) {m : RecordMeta} (hm : m ∈ metas)
    (cutoff : Instant) : m.key ∈ (older cutoff metas).map (·.key) ↔ m.storedAt < cutoff := by
  constructor
  · intro h
    obtain ⟨x, hx, hkey⟩ := List.mem_map.mp h
    obtain ⟨hx, hold⟩ := List.mem_filter.mp hx
    obtain rfl := List.inj_on_of_nodup_map hnodup hx hm hkey
    simpa using hold
  · exact fun hold => List.mem_map_of_mem (List.mem_filter.mpr ⟨hm, by simpa using hold⟩)

end Store

/-! ## Entries without some -/

namespace Entries

variable {l : Entries} {m : RecordMap} {metas : List RecordMeta}

/-- The entries of other keys. -/
def without (l : Entries) (keys : List Key) : Entries := l.filter (·.1 ∉ keys)

/-- The entries written at `cutoff` or later. -/
def since (l : Entries) (cutoff : Instant) : Entries := l.filter fun e => ¬e.2.2 < cutoff

@[simp] theorem without_nil (l : Entries) : l.without [] = l :=
  List.filter_eq_self.mpr fun e _ => by simp

theorem without_cons (l : Entries) (key : Key) (keys : List Key) :
    l.without (key :: keys) = (l.delete key).without keys := by
  rw [without, without, delete, List.filter_filter]
  refine List.filter_congr fun e _ => ?_
  simp [Bool.and_comm]

theorem Mirrors.without (h : l.Mirrors m) (keys : List Key) :
    ∃ m', (l.without keys).Mirrors m' ∧
      ∀ key, m'.lookup key = if key ∈ keys then none else m.lookup key := by
  induction keys generalizing l m with
  | nil => exact ⟨m, by rwa [without_nil], by simp⟩
  | cons first rest ih =>
    obtain ⟨m', hm', hlookup⟩ := ih (h.delete first)
    refine ⟨m', by rwa [without_cons], fun key => ?_⟩
    rw [hlookup key]
    by_cases hfirst : key = first
    · subst hfirst
      simp
    · simp [hfirst, Finmap.lookup_erase_ne hfirst]

theorem mem_older (hmetas : ∀ x, x ∈ metas ↔ x ∈ l.map metaOf) (cutoff : Instant) (key : Key) :
    key ∈ (Store.older cutoff metas).map (·.key) ↔
      ∃ record, (key, record) ∈ l ∧ record.2 < cutoff := by
  simp only [Store.older, List.mem_map, List.mem_filter, hmetas, decide_eq_true_eq]
  constructor
  · rintro ⟨_, ⟨⟨e, he, rfl⟩, hold⟩, rfl⟩
    exact ⟨e.2, he, hold⟩
  · rintro ⟨record, he, hold⟩
    exact ⟨_, ⟨⟨_, he, rfl⟩, hold⟩, rfl⟩

/-- The entries without those of the `older` keys are the entries `since` the cutoff. -/
theorem without_older (hl : (l.map (·.1)).Nodup) (hmetas : ∀ x, x ∈ metas ↔ x ∈ l.map metaOf)
    (cutoff : Instant) : l.without ((Store.older cutoff metas).map (·.key)) = l.since cutoff := by
  refine List.filter_congr fun e he => decide_eq_decide.mpr (not_congr ?_)
  rw [mem_older hmetas]
  constructor
  · rintro ⟨record, hrecord, hold⟩
    have h := (Assoc.lookup_of_mem hl he).symm.trans (Assoc.lookup_of_mem hl hrecord)
    rwa [Option.some.inj h]
  · exact fun hold => ⟨e.2, he, hold⟩

theorem Mirrors.since (h : l.Mirrors m) (cutoff : Instant) :
    ∃ m', (l.since cutoff).Mirrors m' ∧
      ∀ key, m'.lookup key = (m.lookup key).filter fun record => ¬record.2 < cutoff := by
  obtain ⟨m', hm', hlookup⟩ := h.without ((Store.older cutoff (l.map metaOf)).map (·.key))
  rw [without_older h.nodup fun _ => .rfl] at hm'
  refine ⟨m', hm', fun key => ?_⟩
  have hgone := mem_older (l := l) (fun _ => .rfl) cutoff key
  simp only [h.mem_iff] at hgone
  rw [hlookup]
  cases hrecord : m.lookup key with
  | none => simp
  | some record =>
    rw [hrecord] at hgone
    by_cases hold : record.2 < cutoff
    · rw [if_pos (hgone.mpr ⟨record, rfl, hold⟩)]
      simp [Option.filter, hold]
    · rw [if_neg fun hmem => ?_]
      · simp [Option.filter, hold]
      · obtain ⟨_, ⟨⟩, hold'⟩ := hgone.mp hmem
        exact hold hold'

theorem since_since (l : Entries) (t u : Instant) :
    (l.since t).since u = l.since (t.max u) := by
  rw [since, since, since, List.filter_filter]
  refine List.filter_congr fun e _ => ?_
  simp only [← Bool.decide_and, decide_eq_decide, Instant.max, Instant.lt_iff, Instant.le_iff]
  split <;> omega

theorem since_of_le (l : Entries) {t u : Instant} (h : u ≤ t) :
    (l.since t).since u = l.since t := by
  refine List.filter_eq_self.mpr fun e he => ?_
  have hnew := of_decide_eq_true (List.mem_filter.mp he).2
  simp only [decide_eq_true_eq, Instant.lt_iff, Instant.le_iff] at hnew h ⊢
  omega

theorem older_since {t u : Instant} (h : u ≤ t) (hmetas : ∀ x ∈ metas, x ∈ (l.since t).map metaOf) :
    Store.older u metas = [] := by
  refine List.filter_eq_nil_iff.mpr fun x hx => ?_
  obtain ⟨e, he, rfl⟩ := List.mem_map.mp (hmetas x hx)
  have hnew := of_decide_eq_true (List.mem_filter.mp he).2
  simp only [decide_eq_true_eq, metaOf, Instant.lt_iff, Instant.le_iff] at hnew h ⊢
  omega

end Entries

/-! ## Backends with other records -/

namespace Backend

variable {b : Backend} {l l' : Entries}

/-- `b` with the entries `l` for its own. -/
def refilled (b : Backend) (l : Entries) : Backend :=
  match b with
  | .memory _ => .memory (.ofEntries l)
  | .directory path _ => .directory path (.ofEntries l)
  | .table _ => .table (.ofEntries l)

@[simp] theorem refilled_refilled (b : Backend) (l l' : Entries) :
    (b.refilled l).refilled l' = b.refilled l' := by
  cases b <;> rfl

theorem Holds.eq_refilled (h : b.Holds l) : b = b.refilled l := by
  cases b with
  | memory m => exact congrArg _ h
  | directory path d => exact congrArg _ h.2
  | table t => exact congrArg _ h

theorem Holds.refilled (h : b.Holds l) (l' : Entries) : (b.refilled l').Holds l' := by
  cases b with
  | memory m => rfl
  | directory path d => exact ⟨h.1, rfl⟩
  | table t => rfl

theorem Holds.delete_eq (h : b.Holds l) (key : Key) :
    b.delete key = (.ok (l.lookup key).isSome, b.refilled (l.delete key)) := by
  obtain ⟨hanswer, hholds⟩ := h.delete key
  refine Prod.ext hanswer (hholds.eq_refilled.trans ?_)
  cases b <;> rfl

/-- `TellsTimes` depends on the kind of `b` and on the records only. -/
theorem TellsTimes.refilled {m m' : RecordMap} (h : b.TellsTimes m)
    (hm : ∀ key record, m'.lookup key = some record → m.lookup key = some record) :
    (b.refilled l').TellsTimes m' := by
  cases b with
  | memory m => trivial
  | directory path d => trivial
  | table t => exact fun key record hrecord => h key record (hm key record hrecord)

end Backend

namespace Store

variable {s : Store} {l : Entries} {metas : List RecordMeta} {cutoff : Instant}

/-! ## Listing -/

theorem exec_list_eq (s : Store) :
    exec list s = match s.fault s.calls .list with
      | some e => (.error e, s.called s.backend)
      | none => (s.listing, s.called s.backend) := by
  rw [list, exec_bind, exec_pass]
  cases s.fault s.calls .list with
  | some e => rfl
  | none =>
    simp only [exec_bind, exec_getThe, exec_reply, called, listing]
    cases s.backend.list <;> rfl

theorem mem_sorted (precedes : Key → Key → Bool) (metas : List RecordMeta) (x : RecordMeta) :
    x ∈ sorted precedes metas ↔ x ∈ metas := (List.mergeSort_perm _ _).mem_iff

theorem nodup_sorted {precedes : Key → Key → Bool} (h : (metas.map (·.key)).Nodup) :
    ((sorted precedes metas).map (·.key)).Nodup :=
  (List.Perm.map _ (List.mergeSort_perm _ _)).nodup_iff.mpr h

/-- `listing` of a backend that holds `l`. -/
theorem listing_of_holds {m : RecordMap} (hs : s.backend.Holds l) (hm : l.Mirrors m)
    (ht : s.backend.TellsTimes m) :
    s.listing = .ok (sorted s.precedes (l.map Entries.metaOf)) := by
  rw [listing, hs.list hm ht]
  rfl

/-! ## Deleting one after the other -/

/-- The store after a `delete` of each of `keys`. -/
def deleted (s : Store) (l : Entries) (keys : List Key) : Store :=
  { s with backend := s.backend.refilled (l.without keys), calls := s.calls + keys.length }

theorem deleted_nil (hs : s.backend.Holds l) : s.deleted l [] = s := by
  rw [deleted, Entries.without_nil, ← hs.eq_refilled]
  rfl

theorem deleted_cons (key : Key) (keys : List Key) :
    s.deleted l (key :: keys) =
      (s.called (s.backend.refilled (l.delete key))).deleted (l.delete key) keys := by
  simp only [deleted, called, Entries.without_cons, Backend.refilled_refilled, List.length_cons]
  congr 1
  omega

/-- `fault` lets the deletions of `done` pass, which begin with call `n`. -/
def Lets (s : Store) (n : Nat) (done : List RecordMeta) : Prop :=
  ∀ i (h : i < done.length), s.fault (n + i) (.delete done[i].key) = none

theorem Lets.nil (n : Nat) : s.Lets n [] := fun _ h => absurd h (Nat.not_lt_zero _)

theorem Lets.cons {x : RecordMeta} {rest : List RecordMeta} {n : Nat}
    (hx : s.fault n (.delete x.key) = none) (h : s.Lets (n + 1) rest) : s.Lets n (x :: rest)
  | 0, _ => hx
  | i + 1, hi => by
    have hnext := h i (Nat.lt_of_succ_lt_succ hi)
    rwa [Nat.add_assoc, Nat.add_comm 1 i] at hnext

/-- `purge` deletes the `older` records in order, and stops at the first that `fault` refuses. -/
theorem exec_purge_of_holds (hs : s.backend.Holds l) (hnodup : (metas.map (·.key)).Nodup)
    (hthere : ∀ x ∈ metas, (l.lookup x.key).isSome) (cutoff : Instant) :
    ∃ done rest, older cutoff metas = done ++ rest ∧ s.Lets s.calls done ∧
      ((rest = [] ∧
          exec (purge cutoff metas) s = (.ok (done.map (·.key)), s.deleted l (done.map (·.key)))) ∨
        ∃ x tail e, rest = x :: tail ∧ s.fault (s.calls + done.length) (.delete x.key) = some e ∧
          exec (purge cutoff metas) s =
            (.error e, (s.deleted l (done.map (·.key))).called
              (s.deleted l (done.map (·.key))).backend)) := by
  induction metas generalizing s l with
  | nil =>
    refine ⟨[], [], rfl, .nil _, .inl ⟨rfl, ?_⟩⟩
    rw [List.map_nil, deleted_nil hs]
    rfl
  | cons x tail ih =>
    obtain ⟨hx, htail⟩ := List.nodup_cons.mp hnodup
    rw [purge]
    by_cases hold : x.storedAt < cutoff
    · rw [older_cons_of_lt hold, if_pos hold]
      cases hf : s.fault s.calls (.delete x.key) with
      | some e =>
        refine ⟨[], x :: older cutoff tail, rfl, .nil _,
          .inr ⟨x, _, e, rfl, by simpa using hf, ?_⟩⟩
        have hdelete : exec (delete x.key) s = (.error e, s.called s.backend) := by
          rw [exec_delete, hf]
        rw [exec_bind_error hdelete, List.map_nil, deleted_nil hs]
      | none =>
        let s₁ := s.called (s.backend.refilled (l.delete x.key))
        have hdelete : exec (delete x.key) s = (.ok true, s₁) := by
          rw [exec_delete, hf, hs.delete_eq, hthere x List.mem_cons_self]
        have hrest : ∀ y ∈ tail, ((l.delete x.key).lookup y.key).isSome := by
          intro y hy
          have hne : y.key ≠ x.key := fun he => hx (List.mem_map.mpr ⟨y, hy, he⟩)
          rw [Entries.delete, Assoc.lookup_filter_ne, if_neg hne]
          exact hthere y (List.mem_cons_of_mem _ hy)
        obtain ⟨done, rest, holder, hlets, hend⟩ :=
          ih (s := s₁) (hs.refilled (l.delete x.key)) htail hrest
        refine ⟨x :: done, rest, by rw [holder]; rfl, .cons hf hlets, ?_⟩
        rw [exec_bind_ok hdelete, List.map_cons, deleted_cons]
        obtain ⟨rfl, hpurge⟩ | ⟨y, others, e, rfl, hrefused, hpurge⟩ := hend
        · exact .inl ⟨rfl, by rw [exec_bind_ok hpurge]; rfl⟩
        · refine .inr ⟨y, others, e, rfl, ?_, by rw [exec_bind_error hpurge]⟩
          rwa [List.length_cons, Nat.add_comm done.length, ← Nat.add_assoc]
    · rw [older_cons_of_not_lt hold, if_neg hold]
      obtain ⟨done, rest, holder, hlets, hend⟩ :=
        ih hs htail fun y hy => hthere y (List.mem_cons_of_mem _ hy)
      refine ⟨done, rest, holder, hlets, ?_⟩
      rw [exec_bind_ok (exec_pure false s)]
      obtain ⟨rfl, hpurge⟩ | ⟨y, others, e, rfl, hrefused, hpurge⟩ := hend
      · exact .inl ⟨rfl, by rw [exec_bind_ok hpurge]; rfl⟩
      · exact .inr ⟨y, others, e, rfl, hrefused, by rw [exec_bind_error hpurge]⟩

/-! ## Purging a store -/

variable {m : RecordMap} {b : Backend}

/-- `metas` has each record of `m` once. -/
structure Lists (metas : List RecordMeta) (m : RecordMap) : Prop where
  nodup : (metas.map (·.key)).Nodup
  mem_iff : ∀ x, x ∈ metas ↔
    ∃ record, m.lookup x.key = some record ∧ x = Entries.metaOf (x.key, record)

theorem lists_of_mirrors (hm : l.Mirrors m) (precedes : Key → Key → Bool) :
    Lists (sorted precedes (l.map Entries.metaOf)) m where
  nodup := nodup_sorted (by rw [List.map_map]; exact hm.nodup)
  mem_iff x := by
    rw [mem_sorted, List.mem_map]
    constructor
    · rintro ⟨e, he, rfl⟩
      exact ⟨e.2, (hm.mem_iff e.1 e.2).mp he, rfl⟩
    · rintro ⟨record, hrecord, hx⟩
      exact ⟨_, (hm.mem_iff x.key record).mpr hrecord, hx.symm⟩

/-- `b` has the records of `m` but for `done`. -/
def Left (m : RecordMap) (done : List RecordMeta) (b : Backend) : Prop :=
  ∃ m', b.Mirrors m' ∧ ∀ key, m'.lookup key = if key ∈ done.map (·.key) then none else m.lookup key

/-- `purgeOlderThan` is `listing` followed by `purge`. -/
theorem exec_purgeOlderThan_eq (hlist : s.fault s.calls .list = none) (cutoff : Instant) :
    exec (purgeOlderThan cutoff) s = match s.listing with
      | .error e => (.error (.store e), s.called s.backend)
      | .ok metas => exec (lifted (purge cutoff metas)) (s.called s.backend) := by
  have hlisted : exec (lifted list) s = (s.listing.mapError .store, s.called s.backend) := by
    rw [exec_lifted, exec_list_eq, hlist]
  rw [purgeOlderThan, records]
  cases h : s.listing with
  | error e => rw [h] at hlisted; rw [exec_bind_error hlisted]
  | ok metas => rw [h] at hlisted; rw [exec_bind_ok hlisted]

/-- `purgeOlderThan` deletes the `older` records in the order of `listing`, and stops at the first
that `fault` refuses. -/
theorem exec_purgeOlderThan_of_holds (hs : s.backend.Holds l) (hm : l.Mirrors m)
    (ht : s.backend.TellsTimes m) (hlist : s.fault s.calls .list = none) (cutoff : Instant) :
    ∃ done rest s', older cutoff (sorted s.precedes (l.map Entries.metaOf)) = done ++ rest ∧
      s.Lets (s.calls + 1) done ∧ s'.fault = s.fault ∧ s'.precedes = s.precedes ∧
      s'.backend = s.backend.refilled (l.without (done.map (·.key))) ∧
      ((rest = [] ∧ exec (purgeOlderThan cutoff) s = (.ok (done.map (·.key)), s')) ∨
        ∃ x tail e, rest = x :: tail ∧
          s.fault (s.calls + 1 + done.length) (.delete x.key) = some e ∧
          exec (purgeOlderThan cutoff) s = (.error (.store e), s')) := by
  have hlists := lists_of_mirrors hm s.precedes
  obtain ⟨done, rest, holder, hlets, hend⟩ := exec_purge_of_holds (s := s.called s.backend) hs
    hlists.nodup (fun x hx => by
      obtain ⟨record, hrecord, -⟩ := (hlists.mem_iff x).mp hx
      rw [← hm.lookup, hrecord]
      rfl) cutoff
  have hpurge := exec_purgeOlderThan_eq hlist cutoff
  rw [listing_of_holds hs hm ht] at hpurge
  dsimp only at hpurge
  rw [exec_lifted] at hpurge
  obtain ⟨rfl, hdone⟩ | ⟨x, tail, e, rfl, hrefused, hdone⟩ := hend
  · rw [hdone] at hpurge
    refine ⟨done, [], _, holder, hlets, ?_, ?_, ?_, .inl ⟨rfl, hpurge⟩⟩ <;> rfl
  · rw [hdone] at hpurge
    refine ⟨done, x :: tail, _, holder, hlets, ?_, ?_, ?_,
      .inr ⟨x, tail, e, rfl, hrefused, hpurge⟩⟩ <;> rfl

/-- If `fault` lets every call pass, the records `since` the cutoff are left. -/
theorem Open.exec_purgeOlderThan (hopen : s.Open) (hs : s.backend.Holds l) (hm : l.Mirrors m)
    (ht : s.backend.TellsTimes m) (cutoff : Instant) :
    ∃ s', exec (purgeOlderThan cutoff) s =
        (.ok ((older cutoff (sorted s.precedes (l.map Entries.metaOf))).map (·.key)), s') ∧
      s'.Open ∧ s'.precedes = s.precedes ∧ s'.backend = s.backend.refilled (l.since cutoff) := by
  obtain ⟨done, rest, s', holder, -, hfault, hprecedes, hbackend,
      ⟨rfl, hpurge⟩ | ⟨x, -, e, -, hrefused, -⟩⟩ :=
    exec_purgeOlderThan_of_holds hs hm ht (hopen _ _) cutoff
  · rw [List.append_nil] at holder
    rw [← holder, Entries.without_older hm.nodup (mem_sorted _ _)] at hbackend
    exact ⟨s', by rw [hpurge, holder], fun n call => by rw [hfault]; exact hopen n call, hprecedes,
      hbackend⟩
  · exact nomatch (hopen _ _).symm.trans hrefused

/-- After any `calls` on a blank backend, `purgeOlderThan cutoff` deletes exactly the records with
`storedAt < cutoff`, in the order of `listing`, up to the first that `fault` refuses. If none is
refused, the same or an earlier cutoff then deletes nothing, and two cutoffs delete what the later
one does. Only a table with a record from a year that does not have four digits deletes nothing: its
listing fails. -/
theorem purgeOlderThan_exact (hb : b.IsBlank) {calls : List BackendCall}
    (hs : s.backend = b.after calls) (hm : m = RecordMap.after ∅ calls) :
    (s.backend.TellsTimes m → ∃ metas, s.listing = .ok metas ∧ Lists metas m ∧
      (s.Open → ∀ cutoff, ∃ s',
        exec (purgeOlderThan cutoff) s = (.ok ((older cutoff metas).map (·.key)), s') ∧
        (∃ m', s'.backend.Mirrors m' ∧
          ∀ key, m'.lookup key = (m.lookup key).filter fun record => ¬record.2 < cutoff) ∧
        (∀ earlier ≤ cutoff, ∃ s'', exec (purgeOlderThan earlier) s' = (.ok [], s'') ∧
          s''.backend = s'.backend) ∧
        ∀ other, ∃ keys keys' s₂ s₃, exec (purgeOlderThan other) s' = (.ok keys, s₂) ∧
          exec (purgeOlderThan (cutoff.max other)) s = (.ok keys', s₃) ∧ s₂.backend = s₃.backend) ∧
      (s.fault s.calls .list = none → ∀ cutoff, ∃ done rest s',
        older cutoff metas = done ++ rest ∧ s.Lets (s.calls + 1) done ∧ Left m done s'.backend ∧
        ((rest = [] ∧ exec (purgeOlderThan cutoff) s = (.ok (done.map (·.key)), s')) ∨
          ∃ x tail e, rest = x :: tail ∧
            s.fault (s.calls + 1 + done.length) (.delete x.key) = some e ∧
            exec (purgeOlderThan cutoff) s = (.error (.store e), s')))) ∧
    (¬s.backend.TellsTimes m → s.fault s.calls .list = none → ∀ cutoff, ∃ key record,
      m.lookup key = some record ∧
      exec (purgeOlderThan cutoff) s =
        (.error (.store (.invalidRecord (key.text ++ ": bad timestamp"))), s.called s.backend)) := by
  obtain ⟨l, hl, hmirrors⟩ : s.backend.Mirrors m := by
    rw [hs, hm]
    exact hb.mirrors.after calls
  refine ⟨fun ht => ⟨_, listing_of_holds hl hmirrors ht, lists_of_mirrors hmirrors _,
    fun hopen cutoff => ?_, fun hlist cutoff => ?_⟩, fun ht hlist cutoff => ?_⟩
  · obtain ⟨s', hpurge, hopen', hprecedes, hbackend⟩ :=
      hopen.exec_purgeOlderThan hl hmirrors ht cutoff
    obtain ⟨m', hm', hlookup⟩ := hmirrors.since cutoff
    have hl' : s'.backend.Holds (l.since cutoff) := hbackend ▸ hl.refilled _
    have ht' : s'.backend.TellsTimes m' := by
      refine hbackend ▸ ht.refilled fun key record hrecord => ?_
      rw [hlookup] at hrecord
      exact (Option.filter_eq_some_iff.mp hrecord).1
    refine ⟨s', hpurge, ⟨m', ⟨_, hl', hm'⟩, hlookup⟩, fun earlier hle => ?_, fun other => ?_⟩
    · obtain ⟨s'', hagain, -, -, hbackend'⟩ := hopen'.exec_purgeOlderThan hl' hm' ht' earlier
      refine ⟨s'', ?_, ?_⟩
      · rw [hagain, Entries.older_since hle fun x hx => (mem_sorted _ _ x).mp hx]
        rfl
      · rw [hbackend', hbackend, Backend.refilled_refilled, Entries.since_of_le l hle]
    · obtain ⟨s₂, hsecond, -, -, hbackend₂⟩ := hopen'.exec_purgeOlderThan hl' hm' ht' other
      obtain ⟨s₃, honce, -, -, hbackend₃⟩ :=
        hopen.exec_purgeOlderThan hl hmirrors ht (cutoff.max other)
      refine ⟨_, _, s₂, s₃, hsecond, honce, ?_⟩
      rw [hbackend₂, hbackend₃, hbackend, Backend.refilled_refilled, Entries.since_since]
  · obtain ⟨done, rest, s', holder, hlets, -, -, hbackend, hend⟩ :=
      exec_purgeOlderThan_of_holds hl hmirrors ht hlist cutoff
    obtain ⟨m', hm', hlookup⟩ := hmirrors.without (done.map (·.key))
    exact ⟨done, rest, s', holder, hlets, ⟨m', ⟨_, hbackend ▸ hl.refilled _, hm'⟩, hlookup⟩, hend⟩
  · obtain ⟨key, record, hrecord, hlisted⟩ := Backend.Mirrors.list_error ⟨l, hl, hmirrors⟩ ht
    refine ⟨key, record, hrecord, ?_⟩
    have hlisting : s.listing = .error (.invalidRecord (key.text ++ ": bad timestamp")) := by
      rw [Backend.serve] at hlisted
      rw [listing]
      cases h : s.backend.list with
      | error e => rw [h] at hlisted; cases hlisted; rfl
      | ok metas => rw [h] at hlisted; cases hlisted
    rw [exec_purgeOlderThan_eq hlist, hlisting]

/-- A table with records written at 5 and at 9. -/
def smallTable : Store where
  backend := (Backend.table {}).after
    [.put ⟨5⟩ (.ofNat 7) ⟨#[1]⟩, .put ⟨9⟩ (.ofNat 8) ⟨#[2]⟩]
  precedes _ _ := false

/-- `purgeOlderThan ⟨9⟩` deletes the record of 5 and leaves that of 9. -/
theorem purgeOlderThan_exact_of_table :
    ∃ keys s', exec (purgeOlderThan ⟨9⟩) smallTable = (.ok keys, s') ∧
      ∃ m', s'.backend.Mirrors m' ∧ m'.lookup (.ofNat 7) = none ∧
        m'.lookup (.ofNat 8) = some (⟨#[2]⟩, ⟨9⟩) := by
  have hs : smallTable.backend = (Backend.table {}).after
      [.put ⟨5⟩ (.ofNat 7) ⟨#[1]⟩, .put ⟨9⟩ (.ofNat 8) ⟨#[2]⟩] := rfl
  obtain ⟨metas, -, -, hopen, -⟩ := (purgeOlderThan_exact (b := .table {}) rfl hs rfl).1
    ((RecordMap.dated_empty.put (by decide) _ _).put (by decide) _ _)
  obtain ⟨s', hpurge, ⟨m', hm', hlookup⟩, -⟩ := hopen (fun _ _ => rfl) ⟨9⟩
  exact ⟨_, s', hpurge, m', hm', hlookup _, hlookup _⟩

/-- A table with a record of the year 10000. -/
def lateTable : Store where
  backend := (Backend.table {}).after [.put Backend.lateInstant (.ofNat 7) ⟨#[1]⟩]
  precedes _ _ := false

/-- `storedAt` is before the cutoff and no call is refused; but `list` fails, and the record
stays. -/
theorem purgeOlderThan_stuck :
    lateTable.backend.get (.ofNat 7) = .ok (some ⟨#[1]⟩) ∧
    Backend.lateInstant < ⟨Backend.lateInstant.nanos + 1⟩ ∧
    exec (purgeOlderThan ⟨Backend.lateInstant.nanos + 1⟩) lateTable =
      (.error (.store (.invalidRecord ((Key.ofNat 7).text ++ ": bad timestamp"))),
        lateTable.called lateTable.backend) := by
  have hrow := Table.rowMeta_of_longYear (e := (.ofNat 7, ⟨#[1]⟩, Backend.lateInstant)) (by decide)
  have hput : lateTable.backend =
      .table (.ofEntries [(.ofNat 7, ⟨#[1]⟩, Backend.lateInstant)]) := rfl
  have hlisting : lateTable.listing =
      .error (.invalidRecord ((Key.ofNat 7).text ++ ": bad timestamp")) := by
    rw [listing, hput, Backend.list, Table.list, Table.ofEntries, List.map_singleton,
      List.mapM_cons, hrow]
    rfl
  refine ⟨?_, by decide, ?_⟩
  · rw [hput, Backend.get, Table.get_ofEntries, List.lookup_cons_self]
    rfl
  · rw [exec_purgeOlderThan_eq rfl, hlisting]

end Store

end SessionCache
