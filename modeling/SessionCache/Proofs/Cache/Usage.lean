import SessionCache.Cache.Usage
import SessionCache.Proofs.Association

/-!
# Tracked keys

What marking and forgetting a key does to what is tracked of all keys, and which keys a sweep lists
in which order.

* `Usage.find?_markInUse`, `Usage.find?_markIdle`, `Usage.find?_forget`: what is tracked afterwards.
* `Usage.Distinct`: each key is tracked once at most, and stays so.
* `Usage.mem_sweep`, `Usage.pairwise_sweep`: the keys that a sweep lists, and their order.
-/

namespace SessionCache

namespace Usage

variable {u : Usage} {key other : Key}

/-! ## What is tracked of a key -/

/-- Each key has one entry at most. -/
def Distinct (u : Usage) : Prop := (u.entries.map (·.key)).Nodup

@[simp, grind =]
theorem find?_forget (u : Usage) (key other : Key) :
    (u.forget key).find? other = if other = key then none else u.find? other :=
  Assoc.find?_filter_ne UsageEntry.key u.entries key other

@[simp, grind =]
theorem find?_markIdle (u : Usage) (now : Instant) (key other : Key) :
    (u.markIdle now key).find? other =
      if other = key then some ⟨key, false, now⟩ else u.find? other :=
  Assoc.find?_replace UsageEntry.key u.entries ⟨key, false, now⟩ other

theorem find?_map_inUse (es : List UsageEntry) (key other : Key) :
    (es.map fun e => if e.key = key then { e with inUse := true } else e).find? (·.key = other) =
      if other = key then (es.find? (·.key = other)).map fun e => { e with inUse := true }
      else es.find? (·.key = other) := by
  induction es with
  | nil => simp
  | cons e es ih => grind

/-- `markInUse` of a tracked key keeps its `idleSince`, and the entries of other keys. -/
theorem find?_markInUse {e : UsageEntry} (h : u.find? key = some e) (now : Instant) (other : Key) :
    (u.markInUse now key).find? other =
      if other = key then some { e with inUse := true } else u.find? other := by
  simp only [markInUse, h]
  refine (find?_map_inUse u.entries key other).trans ?_
  split
  · rename_i ho
    have he : u.entries.find? (·.key = other) = some e := ho ▸ h
    rw [he]
    rfl
  · rfl

theorem find?_markInUse_of_none (h : u.find? key = none) (now : Instant) (other : Key) :
    (u.markInUse now key).find? other =
      if other = key then some ⟨key, true, now⟩ else u.find? other := by
  simp only [markInUse, h]
  simp only [find?, List.find?_append]
  by_cases ho : other = key
  · subst ho
    rw [show u.entries.find? (·.key = other) = none from h]
    simp
  · simp [ho, Ne.symm ho]

/-- After `markInUse now key`, the entry of `key` is in use. -/
theorem find?_markInUse_self (u : Usage) (now : Instant) (key : Key) :
    ∃ since, (u.markInUse now key).find? key = some ⟨key, true, since⟩ := by
  cases h : u.find? key with
  | some e =>
    have hkey := List.find?_some h
    obtain rfl : e.key = key := of_decide_eq_true hkey
    exact ⟨e.idleSince, (find?_markInUse h now _).trans (if_pos rfl)⟩
  | none => exact ⟨now, (find?_markInUse_of_none h now _).trans (if_pos rfl)⟩

theorem find?_markInUse_of_ne (u : Usage) (now : Instant) (h : other ≠ key) :
    (u.markInUse now key).find? other = u.find? other := by
  cases hkey : u.find? key with
  | some e => rw [find?_markInUse hkey, if_neg h]
  | none => rw [find?_markInUse_of_none hkey, if_neg h]

theorem Distinct.forget (hu : u.Distinct) (key : Key) : (u.forget key).Distinct :=
  hu.sublist (List.filter_sublist.map _)

theorem Distinct.markIdle (hu : u.Distinct) (now : Instant) (key : Key) :
    (u.markIdle now key).Distinct := by
  rw [Distinct, Usage.markIdle, List.map_append]
  refine List.Nodup.append (hu.forget key) (by simp) ?_
  intro k hk hk'
  obtain ⟨e, he, rfl⟩ := List.mem_map.mp hk
  simp only [List.mem_filter, decide_eq_true_eq] at he
  exact he.2 (by simpa using hk')

theorem Distinct.markInUse (hu : u.Distinct) (now : Instant) (key : Key) :
    (u.markInUse now key).Distinct := by
  unfold Usage.markInUse
  cases h : u.find? key with
  | some e =>
    have hkeys : (fun e : UsageEntry => e.key) ∘
        (fun e => if e.key = key then { e with inUse := true } else e) = (·.key) :=
      funext fun e => by by_cases he : e.key = key <;> simp [he]
    simp only [Distinct, List.map_map, hkeys]
    exact hu
  | none =>
    have hnew : key ∉ u.entries.map (·.key) := fun hmem => by
      obtain ⟨e, he, hkey⟩ := List.mem_map.mp hmem
      exact List.find?_eq_none.mp h e he (decide_eq_true hkey)
    rw [Distinct, List.map_append]
    exact hu.append (List.nodup_singleton _) (by simpa using hnew)

/-! ## Entries -/

theorem find?_of_mem (hu : u.Distinct) {e : UsageEntry} (he : e ∈ u.entries) :
    u.find? e.key = some e := by
  unfold Distinct at hu
  unfold find?
  generalize u.entries = es at hu he
  induction es with
  | nil => exact absurd he List.not_mem_nil
  | cons first rest ih =>
    rw [List.map_cons, List.nodup_cons] at hu
    obtain rfl | he := List.mem_cons.mp he
    · exact List.find?_cons_of_pos (decide_eq_true rfl)
    · have hne : first.key ≠ e.key := fun h => hu.1 (List.mem_map.mpr ⟨e, he, h.symm⟩)
      rw [List.find?_cons_of_neg (by simpa using hne)]
      exact ih hu.2 he

theorem find?_eq_some_iff (hu : u.Distinct) {e : UsageEntry} :
    u.find? key = some e ↔ e ∈ u.entries ∧ e.key = key := by
  constructor
  · intro he
    have hkey := List.find?_some he
    exact ⟨List.mem_of_find?_eq_some he, of_decide_eq_true hkey⟩
  · rintro ⟨he, rfl⟩
    exact find?_of_mem hu he

/-- The entries that satisfy `q` are as many as the keys that have such an entry. -/
theorem ncard_tracked (hu : u.Distinct) (q : UsageEntry → Bool) :
    { key | ∃ e, u.find? key = some e ∧ q e = true }.ncard = u.entries.countP q := by
  simp only [find?_eq_some_iff hu, and_assoc]
  exact Assoc.ncard_names hu q

/-! ## Sweeps -/

@[simp] theorem idleTimeout_markInUse (u : Usage) (now : Instant) (key : Key) :
    (u.markInUse now key).idleTimeout = u.idleTimeout := by
  unfold markInUse
  split <;> rfl

theorem mem_sweep {timeout : Duration} (hu : u.Distinct) (ht : u.idleTimeout = some timeout)
    (now : Instant) (key : Key) :
    key ∈ u.sweep now ↔
      ∃ e, u.find? key = some e ∧ e.inUse = false ∧ timeout < now.since e.idleSince := by
  simp only [sweep, ht, List.mem_map, List.mem_mergeSort, List.mem_filter, overdue,
    Bool.and_eq_true, Bool.not_eq_true', decide_eq_true_eq]
  simp only [find?_eq_some_iff hu]
  exact exists_congr fun e => by tauto

theorem nodup_sweep (hu : u.Distinct) (now : Instant) : (u.sweep now).Nodup := by
  unfold sweep
  split
  · exact .nil
  · exact ((List.mergeSort_perm _ _).map _).nodup_iff.mpr (hu.sublist (List.filter_sublist.map _))

/-- Of two keys in `sweep`, the first has the earlier `idleSince`. -/
theorem pairwise_sweep (hu : u.Distinct) (now : Instant) :
    (u.sweep now).Pairwise fun a b => ∀ e e', u.find? a = some e → u.find? b = some e' →
      e.idleSince ≤ e'.idleSince := by
  unfold sweep
  split
  · exact .nil
  · rename_i timeout _
    have hsorted := @List.pairwise_mergeSort UsageEntry
      (fun a b => decide (a.idleSince ≤ b.idleSince))
      (by simp only [decide_eq_true_eq, Instant.le_iff]; omega)
      (by simp only [Bool.or_eq_true, decide_eq_true_eq, Instant.le_iff]; omega)
      (u.entries.filter (overdue timeout now))
    refine List.pairwise_map.mpr (hsorted.imp_of_mem ?_)
    intro a b ha hb hle e e' he he'
    have ha := (List.mem_filter.mp (List.mem_mergeSort.mp ha)).1
    have hb := (List.mem_filter.mp (List.mem_mergeSort.mp hb)).1
    obtain rfl := Option.some.inj ((find?_of_mem hu ha).symm.trans he)
    obtain rfl := Option.some.inj ((find?_of_mem hu hb).symm.trans he')
    exact of_decide_eq_true hle

end Usage

end SessionCache
