import Mathlib.Data.List.Nodup
import Mathlib.Data.Set.Card
import SessionCache.Association

/-!
# Counts in association lists

Where each name is there once, a look-up finds every pair (`Assoc.lookup_of_mem`), and taking the
pair of one name out, or changing it, changes a count by that pair alone.

* `Assoc.countP_filter_ne`, `Assoc.countP_map`: a count afterwards.
* `Assoc.ncard_names`: a count is the number of names.
-/

namespace SessionCache.Assoc

variable {α β : Type} [DecidableEq α]

theorem lookup_of_mem {l : List (α × β)} {a : α} {x : β} (hl : (l.map (·.1)).Nodup)
    (h : (a, x) ∈ l) : l.lookup a = some x := by
  obtain ⟨l₁, l₂, rfl⟩ := List.append_of_mem h
  refine List.lookup_eq_some_iff.mpr ⟨l₁, l₂, rfl, fun e he => ?_⟩
  rw [List.map_append, List.map_cons, List.nodup_append] at hl
  have hne := hl.2.2 e.1 (List.mem_map_of_mem he) a List.mem_cons_self
  simpa using Ne.symm hne

/-- A list whose names are distinct splits at the entry of `a`, and no other entry has that name. -/
theorem split_of_lookup {l : List (α × β)} {a : α} {x : β} (hl : (l.map (·.1)).Nodup)
    (h : l.lookup a = some x) :
    ∃ l₁ l₂, l = l₁ ++ (a, x) :: l₂ ∧ ∀ e ∈ l₁ ++ l₂, e.1 ≠ a := by
  obtain ⟨l₁, l₂, rfl⟩ := List.append_of_mem (mem_of_lookup h)
  refine ⟨l₁, l₂, rfl, fun e he hea => ?_⟩
  rw [List.map_append, List.map_cons, List.nodup_append, List.nodup_cons] at hl
  rcases List.mem_append.mp he with he | he
  · exact hl.2.2 e.1 (List.mem_map_of_mem he) a List.mem_cons_self hea
  · exact hl.2.1.1 (List.mem_map.mpr ⟨e, he, hea⟩)

theorem countP_filter_ne {l : List (α × β)} {a : α} {x : β} (hl : (l.map (·.1)).Nodup)
    (h : l.lookup a = some x) (p : α × β → Bool) :
    (l.filter (·.1 ≠ a)).countP p + (if p (a, x) then 1 else 0) = l.countP p := by
  obtain ⟨l₁, l₂, rfl, hne⟩ := split_of_lookup hl h
  have h₁ : l₁.filter (·.1 ≠ a) = l₁ :=
    List.filter_eq_self.mpr fun e he => by simpa using hne e (List.mem_append_left _ he)
  have h₂ : l₂.filter (·.1 ≠ a) = l₂ :=
    List.filter_eq_self.mpr fun e he => by simpa using hne e (List.mem_append_right _ he)
  rw [List.filter_append, List.filter_cons_of_neg (by simp), h₁, h₂]
  simp only [List.countP_append, List.countP_cons]
  omega

theorem countP_map {l : List (α × β)} {a : α} {x : β} (hl : (l.map (·.1)).Nodup)
    (h : l.lookup a = some x) (p : α × β → Bool) (f : β → β) :
    (l.map (change a f)).countP p + (if p (a, x) then 1 else 0) =
      l.countP p + (if p (a, f x) then 1 else 0) := by
  obtain ⟨l₁, l₂, rfl, hne⟩ := split_of_lookup hl h
  have hid : ∀ l' : List (α × β), (∀ e ∈ l', e.1 ≠ a) → l'.map (change a f) = l' := fun l' hl' =>
    (List.map_congr_left fun e he => if_neg (hl' e he)).trans (List.map_id l')
  rw [List.map_append, List.map_cons, hid l₁ fun e he => hne e (List.mem_append_left _ he),
    hid l₂ fun e he => hne e (List.mem_append_right _ he)]
  simp only [List.countP_append, List.countP_cons, change, if_true]
  omega

omit [DecidableEq α] in
theorem nodup_filter {l : List (α × β)} (hl : (l.map (·.1)).Nodup) (p : α × β → Bool) :
    ((l.filter p).map (·.1)).Nodup :=
  hl.sublist (List.filter_sublist.map _)

/-- With distinct names, there are as many of them with `q` as there are entries with `q`. -/
theorem ncard_names {ε : Type} {l : List ε} {name : ε → α} (hl : (l.map name).Nodup)
    (q : ε → Bool) : { a | ∃ e ∈ l, name e = a ∧ q e = true }.ncard = l.countP q := by
  have hnames : { a | ∃ e ∈ l, name e = a ∧ q e = true } =
      (((l.filter q).map name).toFinset : Finset α) := by
    ext a
    simp only [Set.mem_ofPred_eq, List.coe_toFinset, List.mem_map, List.mem_filter]
    exact exists_congr fun e => by tauto
  have hnodup : ((l.filter q).map name).Nodup := hl.sublist (List.filter_sublist.map _)
  rw [hnames, Set.ncard_coe_finset, List.toFinset_card_of_nodup hnodup, List.length_map,
    List.countP_eq_length_filter]

end SessionCache.Assoc
