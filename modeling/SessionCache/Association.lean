/-!
# Association lists

Files, slots and other things with names are kept in lists of pairs. Here is what becomes of
`List.lookup` when the pair of one name is taken out or changed.

* `Assoc.lookup_filter_ne`, `Assoc.lookup_replace`, `Assoc.lookup_map`: a look-up afterwards.
* `Assoc.find?_filter_ne`, `Assoc.find?_replace`: the same where each thing tells its own name.
* `Assoc.lookup_map_pair`: a look-up in a list of which the pairs were made.
-/

namespace SessionCache.Assoc

variable {α β γ : Type} [DecidableEq α]

section Lookup

variable [BEq α] [LawfulBEq α]

theorem lookup_filter_ne (l : List (α × β)) (a b : α) :
    (l.filter (·.1 ≠ a)).lookup b = if b = a then none else l.lookup b := by
  induction l with
  | nil => simp
  | cons e rest ih =>
    obtain ⟨k, x⟩ := e
    by_cases hk : k = a
    · rw [List.filter_cons_of_neg (by simpa using hk), ih]
      split
      · rfl
      · rename_i hb
        rw [List.lookup_cons, beq_eq_false_iff_ne.mpr fun h => hb (h.trans hk)]
    · rw [List.filter_cons_of_pos (by simpa using hk), List.lookup_cons, List.lookup_cons, ih]
      by_cases hb : b = k
      · subst hb
        simp only [beq_self_eq_true, if_neg hk]
      · rw [beq_eq_false_iff_ne.mpr hb]

/-- `lookup` after the entry of `a` was replaced by `x`, at the end of the list. -/
theorem lookup_replace (l : List (α × β)) (a b : α) (x : β) :
    (l.filter (·.1 ≠ a) ++ [(a, x)]).lookup b = if b = a then some x else l.lookup b := by
  rw [List.lookup_append, lookup_filter_ne, List.lookup_cons, List.lookup_nil]
  by_cases hb : b = a
  · simp [hb]
  · simp [hb, beq_eq_false_iff_ne.mpr hb]

end Lookup

theorem find?_filter_ne (name : γ → α) (l : List γ) (a b : α) :
    (l.filter (name · ≠ a)).find? (name · = b) =
      if b = a then none else l.find? (name · = b) := by
  induction l with
  | nil => simp
  | cons c rest ih => grind

/-- `find?` by name after the element with the name of `c` was replaced by `c`. -/
theorem find?_replace (name : γ → α) (l : List γ) (c : γ) (b : α) :
    (l.filter (name · ≠ name c) ++ [c]).find? (name · = b) =
      if b = name c then some c else l.find? (name · = b) := by
  rw [List.find?_append, find?_filter_ne]
  by_cases hb : b = name c
  · simp [hb]
  · simp [hb, Ne.symm hb]

/-- `f` of the value of `a`; other entries stay. -/
def change (a : α) (f : β → β) (e : α × β) : α × β := if e.1 = a then (a, f e.2) else e

theorem change_fst (a : α) (f : β → β) (e : α × β) : (change a f e).1 = e.1 := by
  unfold change
  split
  · rename_i h; exact h.symm
  · rfl

theorem map_change_fst (l : List (α × β)) (a : α) (f : β → β) :
    (l.map (change a f)).map (·.1) = l.map (·.1) := by
  rw [List.map_map]
  exact List.map_congr_left fun e _ => change_fst a f e

theorem lookup_map (l : List (α × β)) (a b : α) (f : β → β) :
    (l.map (change a f)).lookup b = if b = a then (l.lookup b).map f else l.lookup b := by
  induction l with
  | nil => simp
  | cons e rest ih =>
    obtain ⟨k, x⟩ := e
    by_cases hk : k = a
    · subst hk
      by_cases hb : b = k
      · subst hb; simp [change]
      · have hbk : (b == k) = false := beq_eq_false_iff_ne.mpr hb
        simp only [List.map_cons, change, if_true, List.lookup_cons, hbk] at ih ⊢
        rw [ih]
    · simp only [List.map_cons, change, hk, if_false, List.lookup_cons] at ih ⊢
      by_cases hb : b = k
      · subst hb
        rw [if_neg hk, beq_self_eq_true]
      · rw [beq_eq_false_iff_ne.mpr hb, ih]

/-- `lookup` in a list of pairs made from the elements of `l`. -/
theorem lookup_map_pair (name : γ → α) (value : γ → β) (l : List γ) (a : α) :
    (l.map fun c => (name c, value c)).lookup a = (l.find? (name · = a)).map value := by
  induction l with
  | nil => rfl
  | cons c rest ih =>
    rw [List.map_cons, List.lookup_cons, ih]
    by_cases h : a = name c
    · rw [h, beq_self_eq_true, List.find?_cons_of_pos (by simp), Option.map_some]
    · rw [beq_eq_false_iff_ne.mpr h, List.find?_cons_of_neg (by simpa using Ne.symm h)]

theorem mem_of_lookup {l : List (α × β)} {a : α} {x : β} (h : l.lookup a = some x) :
    (a, x) ∈ l := by
  obtain ⟨l₁, l₂, rfl, -⟩ := List.lookup_eq_some_iff.mp h
  simp

end SessionCache.Assoc
