import Mathlib.Algebra.BigOperators.Group.Finset.Piecewise
import SessionCache.Proofs.Record.Basket
import SessionCache.Simulation.Workload

/-!
# What calls amount to

For calls made one after the other by one worker it follows from the calls alone what is in each
basket and how they are counted: a call is completed unless an earlier one removed its session, and
each completed call leaves one item in the basket. A past lists calls, the last one first.

* `Plan.basket`, `Plan.tally`: the baskets and the counts after a past, and what one more call
  changes.
* `Plan.completed_add_notFound`, `Plan.tally_removed`, `Plan.completed_of_kept`: the counts as a
  whole.
-/

namespace SessionCache

namespace Plan

variable {plan : Plan} {n : Nat} {c : Choice} {past : List Choice}

/-- The session that `c` is a call to. -/
def target (plan : Plan) (c : Choice) : Nat := c.session % plan.sessions

/-- The calls to session `n`. -/
def callsTo (plan : Plan) (n : Nat) (past : List Choice) : List Choice :=
  past.filter (plan.target · = n)

/-- A call to session `n` asked for its removal. -/
def Gone (plan : Plan) (n : Nat) (past : List Choice) : Prop :=
  ∃ c ∈ plan.callsTo n past, c.roll < plan.removePercent

instance (plan : Plan) (n : Nat) (past : List Choice) : Decidable (plan.Gone n past) :=
  inferInstanceAs (Decidable (∃ c ∈ plan.callsTo n past, c.roll < plan.removePercent))

/-- The basket with the items of all calls to session `n`. -/
def filled (plan : Plan) (n : Nat) (past : List Choice) : Basket where
  customer := Workload.customer n
  items := (plan.callsTo n past).map (·.item)
  calls := (plan.callsTo n past).length

/-- `filled`, or `none` if the session is `Gone`. -/
def basket (plan : Plan) (n : Nat) (past : List Choice) : Option Basket :=
  if plan.Gone n past then none else some (plan.filled n past)

/-- The counts after the calls `past`. -/
def tally (plan : Plan) : List Choice → Tally
  | [] => {}
  | c :: past =>
    let t := plan.tally past
    if plan.Gone (plan.target c) past then { t with notFound := t.notFound + 1 }
    else
      let t := { t with completed := t.completed + 1 }
      if c.roll < plan.removePercent then { t with removed := t.removed + 1 } else t

theorem target_lt (h : 0 < plan.sessions) (c : Choice) : plan.target c < plan.sessions :=
  Nat.mod_lt _ h

/-! ## One more call -/

theorem callsTo_cons_self (h : plan.target c = n) (past : List Choice) :
    plan.callsTo n (c :: past) = c :: plan.callsTo n past :=
  List.filter_cons_of_pos (by simpa using h)

theorem callsTo_cons_other (h : plan.target c ≠ n) (past : List Choice) :
    plan.callsTo n (c :: past) = plan.callsTo n past :=
  List.filter_cons_of_neg (by simpa using h)

theorem gone_cons_self (h : plan.target c = n) (past : List Choice) :
    plan.Gone n (c :: past) ↔ c.roll < plan.removePercent ∨ plan.Gone n past := by
  rw [Gone, callsTo_cons_self h, List.exists_mem_cons_iff]
  rfl

theorem gone_cons_other (h : plan.target c ≠ n) (past : List Choice) :
    plan.Gone n (c :: past) ↔ plan.Gone n past := by
  rw [Gone, callsTo_cons_other h]
  rfl

theorem Gone.cons (h : plan.Gone n past) (c : Choice) : plan.Gone n (c :: past) := by
  by_cases hc : plan.target c = n
  · exact (gone_cons_self hc past).mpr (.inr h)
  · exact (gone_cons_other hc past).mpr h

theorem filled_cons (h : plan.target c = n) (past : List Choice) :
    plan.filled n (c :: past) = ((plan.filled n past).add c.item).countCall := by
  simp only [filled, callsTo_cons_self h, List.map_cons, List.length_cons]
  rfl

theorem basket_of_gone (h : plan.Gone n past) : plan.basket n past = none := if_pos h

theorem basket_of_kept (h : ¬plan.Gone n past) : plan.basket n past = some (plan.filled n past) :=
  if_neg h

theorem basket_cons_other (h : plan.target c ≠ n) (past : List Choice) :
    plan.basket n (c :: past) = plan.basket n past := by
  simp only [basket, gone_cons_other h, filled, callsTo_cons_other h]

theorem tally_cons_gone (h : plan.Gone (plan.target c) past) :
    plan.tally (c :: past) =
      { plan.tally past with notFound := (plan.tally past).notFound + 1 } := if_pos h

theorem tally_cons_kept (h : ¬plan.Gone (plan.target c) past)
    (hroll : ¬c.roll < plan.removePercent) :
    plan.tally (c :: past) =
      { plan.tally past with completed := (plan.tally past).completed + 1 } :=
  (if_neg h).trans (if_neg hroll)

theorem tally_cons_removed (h : ¬plan.Gone (plan.target c) past)
    (hroll : c.roll < plan.removePercent) :
    plan.tally (c :: past) =
      { plan.tally past with
        completed := (plan.tally past).completed + 1
        removed := (plan.tally past).removed + 1 } :=
  (if_neg h).trans (if_pos hroll)

theorem completed_cons (h : ¬plan.Gone (plan.target c) past) :
    (plan.tally (c :: past)).completed = (plan.tally past).completed + 1 := by
  by_cases hroll : c.roll < plan.removePercent
  · rw [tally_cons_removed h hroll]
  · rw [tally_cons_kept h hroll]

/-! ## Baskets that can be written -/

/-- Every quantity is below `2 ^ 32`, and there are fewer than `2 ^ 64` calls. -/
structure Writable (past : List Choice) : Prop where
  calls : past.length < twoTo 64
  items : ∀ c ∈ past, c.item.Fits

theorem Writable.tail {earlier : List Choice} (h : Writable (past ++ earlier)) :
    Writable earlier where
  calls := (by simp : earlier.length ≤ (past ++ earlier).length).trans_lt h.calls
  items c hc := h.items c (List.mem_append_right _ hc)

theorem Writable.fits (h : Writable past) (plan : Plan) (n : Nat) : (plan.filled n past).Fits where
  calls := (List.length_filter_le _ _).trans_lt h.calls
  items item hitem := by
    obtain ⟨c, hc, rfl⟩ := List.mem_map.mp hitem
    exact h.items c (List.mem_filter.mp hc).1

/-! ## The counts as a whole -/

/-- No call was counted as `inUse`, `capacity` or failed. -/
structure Unhindered (t : Tally) : Prop where
  inUse : t.inUse = 0
  capacity : t.capacity = 0
  failed : t.failed = 0

theorem unhindered_tally (plan : Plan) (past : List Choice) : Unhindered (plan.tally past) := by
  induction past with
  | nil => exact ⟨rfl, rfl, rfl⟩
  | cons c past ih =>
    rw [tally]
    split
    · exact ⟨ih.inUse, ih.capacity, ih.failed⟩
    · split <;> exact ⟨ih.inUse, ih.capacity, ih.failed⟩

theorem completed_add_notFound (plan : Plan) (past : List Choice) :
    (plan.tally past).completed + (plan.tally past).notFound = past.length := by
  induction past with
  | nil => rfl
  | cons c past ih =>
    rw [tally, List.length_cons]
    split
    · dsimp only
      omega
    · split <;> (dsimp only; omega)

/-- The sessions that are `Gone`. -/
def removedSessions (plan : Plan) (past : List Choice) : Finset Nat :=
  (Finset.range plan.sessions).filter (plan.Gone · past)

theorem removedSessions_cons_removed (hpos : 0 < plan.sessions)
    (hroll : c.roll < plan.removePercent) :
    plan.removedSessions (c :: past) = insert (plan.target c) (plan.removedSessions past) := by
  ext n
  simp only [removedSessions, Finset.mem_filter, Finset.mem_range, Finset.mem_insert]
  by_cases hc : plan.target c = n
  · subst hc
    simp [gone_cons_self rfl past, hroll, target_lt hpos c]
  · simp [gone_cons_other hc past, Ne.symm hc]

theorem removedSessions_cons_same
    (h : ¬c.roll < plan.removePercent ∨ plan.Gone (plan.target c) past) :
    plan.removedSessions (c :: past) = plan.removedSessions past := by
  refine Finset.filter_congr fun n _ => ?_
  by_cases hc : plan.target c = n
  · subst hc
    rw [gone_cons_self rfl]
    tauto
  · exact gone_cons_other hc past

/-- `removed` is the number of `removedSessions`. -/
theorem tally_removed (hpos : 0 < plan.sessions) (past : List Choice) :
    (plan.tally past).removed = (plan.removedSessions past).card := by
  induction past with
  | nil =>
    have hnone : plan.removedSessions [] = ∅ :=
      Finset.filter_eq_empty_iff.mpr fun n _ ⟨c, hc, _⟩ => List.not_mem_nil hc
    rw [hnone]
    rfl
  | cons c past ih =>
    by_cases hgone : plan.Gone (plan.target c) past
    · rw [tally_cons_gone hgone, removedSessions_cons_same (.inr hgone)]
      exact ih
    · by_cases hroll : c.roll < plan.removePercent
      · have hnew : plan.target c ∉ plan.removedSessions past :=
          fun hmem => hgone (Finset.mem_filter.mp hmem).2
        rw [tally_cons_removed hgone hroll, removedSessions_cons_removed hpos hroll,
          Finset.card_insert_of_notMem hnew]
        exact congrArg (· + 1) ih
      · rw [tally_cons_kept hgone hroll, removedSessions_cons_same (.inl hroll)]
        exact ih

/-- The calls to each session add up to all calls. -/
theorem sum_length_callsTo (hpos : 0 < plan.sessions) (past : List Choice) :
    ∑ n ∈ Finset.range plan.sessions, (plan.callsTo n past).length = past.length := by
  induction past with
  | nil => exact Finset.sum_const_zero
  | cons c past ih =>
    have hstep : ∀ n, (plan.callsTo n (c :: past)).length =
        (plan.callsTo n past).length + if plan.target c = n then 1 else 0 := by
      intro n
      split
      · rename_i hc
        rw [callsTo_cons_self hc, List.length_cons]
      · rename_i hc
        rw [callsTo_cons_other hc, Nat.add_zero]
    rw [Finset.sum_congr rfl fun n _ => hstep n, Finset.sum_add_distrib, ih, Finset.sum_ite_eq,
      if_pos (Finset.mem_range.mpr (target_lt hpos c)), List.length_cons]

/-- If no session is `Gone`, every call is completed. -/
theorem completed_of_kept (hpos : 0 < plan.sessions)
    (h : ∀ n < plan.sessions, ¬plan.Gone n past) :
    (plan.tally past).completed = past.length := by
  induction past with
  | nil => rfl
  | cons c past ih =>
    have hkept : ∀ n < plan.sessions, ¬plan.Gone n past := fun n hn hgone => h n hn (hgone.cons c)
    rw [completed_cons (hkept _ (target_lt hpos c)), ih hkept, List.length_cons]

end Plan

end SessionCache
