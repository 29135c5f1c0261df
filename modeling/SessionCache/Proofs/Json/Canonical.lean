import Mathlib.Data.List.Nodup
import Mathlib.Order.Lattice.Nat
import SessionCache.Json.Value

/-!
# Canonical values

A value is `Exact` if its numbers are integers of 64 bits, which keep their value when they are
written, and if no object has two fields of one name. Putting the fields of an exact value in order
loses none of them.

* `Tree.toValue?_limit`: what a document means does not depend on how deep the reader goes.
* `sortFields_perm`, `sortFields_of_ascending`: what becomes of fields that are put in order.
* `Value.canonical_canonical`: a canonical form is its own.
* `Value.Exact.depth_canonical`: it nests as deep as the value.
-/

namespace SessionCache.Json

/-! ## Fields in order -/

section Fields

variable {α β : Type} {name : String} {value : α} {field : String × α}
  {fields acc : List (String × α)}

/-- The names strictly ascend. -/
def Ascending (fields : List (String × α)) : Prop := fields.Pairwise (·.1 < ·.1)

theorem mem_insertField (h : field ∈ insertField name value fields) :
    field = (name, value) ∨ field ∈ fields := by
  induction fields with
  | nil => exact .inl (List.mem_singleton.mp h)
  | cons other rest ih =>
    rw [insertField] at h
    split at h
    · exact List.mem_cons.mp h
    · split at h
      · exact (List.mem_cons.mp h).imp_right (List.mem_cons_of_mem _)
      · rcases List.mem_cons.mp h with rfl | h
        · exact .inr List.mem_cons_self
        · exact (ih h).imp_right (List.mem_cons_of_mem _)

theorem Ascending.insertField (h : Ascending fields) :
    Ascending (insertField name value fields) := by
  induction fields with
  | nil => exact List.pairwise_singleton _ _
  | cons other rest ih =>
    obtain ⟨hother, hrest⟩ := List.pairwise_cons.mp h
    rw [Json.insertField]
    split
    · next hlt =>
      refine List.pairwise_cons.mpr ⟨fun field hfield => ?_, h⟩
      rcases List.mem_cons.mp hfield with rfl | hfield
      · exact hlt
      · exact String.lt_trans hlt (hother field hfield)
    · next hlt =>
      split
      · next heq =>
        subst heq
        exact List.pairwise_cons.mpr ⟨hother, hrest⟩
      · next hne =>
        refine List.pairwise_cons.mpr ⟨fun field hfield => ?_, ih hrest⟩
        rcases mem_insertField hfield with rfl | hfield
        · exact Decidable.byContradiction fun hge =>
            hne (String.le_antisymm (String.not_lt.mp hge) (String.not_lt.mp hlt))
        · exact hother field hfield

/-- `insertField` of each of `fields`, in order. -/
def insertFields (acc fields : List (String × α)) : List (String × α) :=
  fields.foldl (fun sorted field => insertField field.1 field.2 sorted) acc

theorem Ascending.insertFields (h : Ascending acc) (fields : List (String × α)) :
    Ascending (insertFields acc fields) := by
  induction fields generalizing acc with
  | nil => exact h
  | cons field rest ih => exact ih h.insertField

theorem ascending_sortFields (fields : List (String × α)) : Ascending (sortFields fields) :=
  Ascending.insertFields .nil fields

theorem mem_insertFields (h : field ∈ insertFields acc fields) : field ∈ acc ∨ field ∈ fields := by
  induction fields generalizing acc with
  | nil => exact .inl h
  | cons other rest ih =>
    rcases ih h with h | h
    · rcases mem_insertField h with rfl | h
      · exact .inr List.mem_cons_self
      · exact .inl h
    · exact .inr (List.mem_cons_of_mem _ h)

theorem mem_sortFields (h : field ∈ sortFields fields) : field ∈ fields :=
  (mem_insertFields h).resolve_left List.not_mem_nil

theorem insertField_of_forall_lt (h : ∀ field ∈ fields, field.1 < name) :
    insertField name value fields = fields ++ [(name, value)] := by
  induction fields with
  | nil => rfl
  | cons other rest ih =>
    have hother := h other List.mem_cons_self
    rw [insertField, if_neg (String.lt_asymm hother), if_neg, List.cons_append,
      ih fun field hfield => h field (List.mem_cons_of_mem _ hfield)]
    rintro rfl
    exact String.lt_irrefl _ hother

theorem insertFields_of_ascending (h : Ascending (acc ++ fields)) :
    insertFields acc fields = acc ++ fields := by
  induction fields generalizing acc with
  | nil => exact (List.append_nil acc).symm
  | cons field rest ih =>
    have hlast : ∀ other ∈ acc, other.1 < field.1 := fun other hother =>
      (List.pairwise_append.mp h).2.2 other hother field List.mem_cons_self
    rw [List.append_cons] at h ⊢
    rw [insertFields, List.foldl_cons, insertField_of_forall_lt hlast]
    exact ih h

theorem sortFields_of_ascending (h : Ascending fields) : sortFields fields = fields :=
  insertFields_of_ascending h

theorem insertField_map (f : α → β) :
    insertField name (f value) (fields.map (Prod.map id f)) =
      (insertField name value fields).map (Prod.map id f) := by
  induction fields with
  | nil => rfl
  | cons other rest ih =>
    simp only [List.map_cons, insertField, Prod.map, id]
    split
    · rfl
    · split
      · rfl
      · exact congrArg _ ih

theorem insertFields_map (f : α → β) (acc fields : List (String × α)) :
    insertFields (acc.map (Prod.map id f)) (fields.map (Prod.map id f)) =
      (insertFields acc fields).map (Prod.map id f) := by
  induction fields generalizing acc with
  | nil => rfl
  | cons field rest ih =>
    refine Eq.trans ?_ (ih (insertField field.1 field.2 acc))
    rw [← insertField_map]
    rfl

theorem sortFields_map (f : α → β) (fields : List (String × α)) :
    sortFields (fields.map (Prod.map id f)) = (sortFields fields).map (Prod.map id f) :=
  insertFields_map f [] fields

theorem insertField_perm (h : name ∉ fields.map (·.1)) :
    (insertField name value fields).Perm ((name, value) :: fields) := by
  induction fields with
  | nil => exact .refl _
  | cons other rest ih =>
    rw [List.map_cons, List.mem_cons, not_or] at h
    rw [insertField]
    split
    · exact .refl _
    · rw [if_neg h.1]
      exact ((ih h.2).cons other).trans (.swap _ _ _)

theorem insertFields_perm (h : ((acc ++ fields).map (·.1)).Nodup) :
    (insertFields acc fields).Perm (acc ++ fields) := by
  induction fields generalizing acc with
  | nil => exact .of_eq (List.append_nil acc).symm
  | cons field rest ih =>
    have hnew : field.1 ∉ acc.map (·.1) := by
      rw [List.map_append, List.nodup_append] at h
      exact fun hmem => h.2.2 _ hmem _ List.mem_cons_self rfl
    have hperm : (insertField field.1 field.2 acc ++ rest).Perm (acc ++ field :: rest) :=
      ((insertField_perm hnew).append_right rest).trans List.perm_middle.symm
    exact (ih ((hperm.map _).nodup_iff.mpr h)).trans hperm

/-- `sortFields` permutes the fields, if no name occurs twice. -/
theorem sortFields_perm (h : (fields.map (·.1)).Nodup) : (sortFields fields).Perm fields :=
  insertFields_perm h

end Fields

/-! ## Documents -/

namespace Tree

mutual

/-- How deep arrays and objects are nested. -/
def depth : Tree → Nat
  | .array items => itemsDepth items + 1
  | .object fields => fieldsDepth fields + 1
  | _ => 0

/-- The greatest `depth` of the items. -/
def itemsDepth : List Tree → Nat
  | [] => 0
  | item :: rest => max (depth item) (itemsDepth rest)

/-- The greatest `depth` of the values. -/
def fieldsDepth : List (Option String × Tree) → Nat
  | [] => 0
  | (_, item) :: rest => max (depth item) (fieldsDepth rest)

end

mutual

/-- `toValue? d` gives a value only if `tree.depth ≤ d`, and gives the same for every other limit
from `tree.depth` on. -/
theorem toValue?_limit : ∀ {tree : Tree} {d : Nat} {v : Value}, tree.toValue? d = some v →
    tree.depth ≤ d ∧ ∀ d', tree.depth ≤ d' → tree.toValue? d' = some v
  | .null, _, _, h | .bool _, _, _, h | .number _, _, _, h | .string _, _, _, h =>
    ⟨Nat.zero_le _, fun _ _ => h⟩
  | .array items, d + 1, _, h => by
    obtain ⟨values, hitems, rfl⟩ := Option.map_eq_some_iff.mp h
    obtain ⟨hdepth, hother⟩ := itemsToValues?_limit hitems
    refine ⟨Nat.succ_le_succ hdepth, fun d' hd' => ?_⟩
    obtain ⟨d', rfl⟩ := Nat.exists_eq_add_one_of_ne_zero (Nat.ne_zero_of_lt hd')
    rw [toValue?, hother d' (Nat.le_of_succ_le_succ hd')]
    rfl
  | .object fields, d + 1, _, h => by
    obtain ⟨values, hfields, rfl⟩ := Option.map_eq_some_iff.mp h
    obtain ⟨hdepth, hother⟩ := fieldsToValues?_limit hfields
    refine ⟨Nat.succ_le_succ hdepth, fun d' hd' => ?_⟩
    obtain ⟨d', rfl⟩ := Nat.exists_eq_add_one_of_ne_zero (Nat.ne_zero_of_lt hd')
    rw [toValue?, hother d' (Nat.le_of_succ_le_succ hd')]
    rfl

theorem itemsToValues?_limit : ∀ {items : List Tree} {d : Nat} {values : List Value},
    itemsToValues? d items = some values →
      itemsDepth items ≤ d ∧ ∀ d', itemsDepth items ≤ d' → itemsToValues? d' items = some values
  | [], _, _, h => ⟨Nat.zero_le _, fun _ _ => h⟩
  | item :: rest, d, _, h => by
    rw [itemsToValues?] at h
    obtain ⟨v, hitem, h⟩ := Option.bind_eq_some_iff.mp h
    obtain ⟨values, hrest, h⟩ := Option.bind_eq_some_iff.mp h
    obtain ⟨hfirst, hfirst'⟩ := toValue?_limit hitem
    obtain ⟨hlater, hlater'⟩ := itemsToValues?_limit hrest
    refine ⟨Nat.max_le.mpr ⟨hfirst, hlater⟩, fun d' hd' => ?_⟩
    obtain ⟨hd₁, hd₂⟩ := Nat.max_le.mp hd'
    rw [itemsToValues?, hfirst' d' hd₁, hlater' d' hd₂]
    exact h

theorem fieldsToValues?_limit : ∀ {fields : List (Option String × Tree)} {d : Nat}
    {values : List (String × Value)}, fieldsToValues? d fields = some values →
      fieldsDepth fields ≤ d ∧
        ∀ d', fieldsDepth fields ≤ d' → fieldsToValues? d' fields = some values
  | [], _, _, h => ⟨Nat.zero_le _, fun _ _ => h⟩
  | (name?, item) :: rest, d, _, h => by
    rw [fieldsToValues?] at h
    obtain ⟨name, hname, h⟩ := Option.bind_eq_some_iff.mp h
    obtain ⟨v, hitem, h⟩ := Option.bind_eq_some_iff.mp h
    obtain ⟨values, hrest, h⟩ := Option.bind_eq_some_iff.mp h
    obtain ⟨hfirst, hfirst'⟩ := toValue?_limit hitem
    obtain ⟨hlater, hlater'⟩ := fieldsToValues?_limit hrest
    refine ⟨Nat.max_le.mpr ⟨hfirst, hlater⟩, fun d' hd' => ?_⟩
    obtain ⟨hd₁, hd₂⟩ := Nat.max_le.mp hd'
    rw [fieldsToValues?, hname, Option.bind_eq_bind, Option.bind_some, hfirst' d' hd₁,
      hlater' d' hd₂]
    exact h

end

end Tree

/-! ## Values -/

/-- A 64-bit integer, signed or unsigned. -/
def Number.IsWord : Number → Prop
  | .int n => fitsSigned 63 n ∨ fitsUnsigned 64 n
  | .double _ => False

namespace Value

mutual

/-- Every number `IsWord`, and no object has a name twice. -/
def Exact : Value → Prop
  | .number n => n.IsWord
  | .array items => ExactItems items
  | .object fields => (fields.map (·.1)).Nodup ∧ ExactFields fields
  | _ => True

/-- Every item is `Exact`. -/
def ExactItems : List Value → Prop
  | [] => True
  | item :: rest => Exact item ∧ ExactItems rest

/-- The value of every field is `Exact`. -/
def ExactFields : List (String × Value) → Prop
  | [] => True
  | (_, value) :: rest => Exact value ∧ ExactFields rest

end

mutual

/-- How deep arrays and objects are nested. -/
def depth : Value → Nat
  | .array items => itemsDepth items + 1
  | .object fields => fieldsDepth fields + 1
  | _ => 0

/-- The greatest `depth` of the items. -/
def itemsDepth : List Value → Nat
  | [] => 0
  | item :: rest => max (depth item) (itemsDepth rest)

/-- The greatest `depth` of the values. -/
def fieldsDepth : List (String × Value) → Nat
  | [] => 0
  | (_, value) :: rest => max (depth value) (fieldsDepth rest)

end

/-- Induction over a value, with the hypothesis for every item and for the value of every field. -/
@[elab_as_elim]
theorem nestedInduction {P : Value → Prop} (null : P .null) (bool : ∀ b, P (.bool b))
    (number : ∀ n, P (.number n)) (string : ∀ s, P (.string s))
    (array : ∀ items, (∀ v ∈ items, P v) → P (.array items))
    (object : ∀ fields, (∀ field ∈ fields, P field.2) → P (.object fields)) : ∀ v, P v
  | .null => null
  | .bool b => bool b
  | .number n => number n
  | .string s => string s
  | .array items => array items fun v hv =>
    have := List.sizeOf_lt_of_mem hv
    nestedInduction null bool number string array object v
  | .object fields => object fields fun (name, v) hv =>
    have : sizeOf (name, v) < sizeOf fields := List.sizeOf_lt_of_mem hv
    have : sizeOf v < sizeOf fields := Nat.lt_trans (by simp +arith) this
    nestedInduction null bool number string array object v

theorem exactItems_iff {items : List Value} : ExactItems items ↔ ∀ v ∈ items, v.Exact := by
  induction items with
  | nil => simp [ExactItems]
  | cons v rest ih => simp [ExactItems, ih]

theorem exactFields_iff {fields : List (String × Value)} :
    ExactFields fields ↔ ∀ field ∈ fields, field.2.Exact := by
  induction fields with
  | nil => simp [ExactFields]
  | cons field rest ih => simp [ExactFields, ih]

theorem itemsDepth_le_iff {items : List Value} {d : Nat} :
    itemsDepth items ≤ d ↔ ∀ v ∈ items, v.depth ≤ d := by
  induction items with
  | nil => simp [itemsDepth]
  | cons v rest ih => simp [itemsDepth, ih]

theorem fieldsDepth_le_iff {fields : List (String × Value)} {d : Nat} :
    fieldsDepth fields ≤ d ↔ ∀ field ∈ fields, field.2.depth ≤ d := by
  induction fields with
  | nil => simp [fieldsDepth]
  | cons field rest ih => simp [fieldsDepth, ih]

theorem canonicalItems_eq_map (items : List Value) : canonicalItems items = items.map canonical := by
  induction items with
  | nil => rfl
  | cons v rest ih => rw [canonicalItems, ih, List.map_cons]

theorem canonicalFields_eq_map (fields : List (String × Value)) :
    canonicalFields fields = fields.map (Prod.map id canonical) := by
  induction fields with
  | nil => rfl
  | cons field rest ih => rw [canonicalFields, ih, List.map_cons]; rfl

theorem canonical_object (fields : List (String × Value)) :
    (object fields).canonical = .object ((sortFields fields).map (Prod.map id canonical)) := by
  rw [canonical, canonicalFields_eq_map, sortFields_map]

theorem canonical_array (items : List Value) :
    (array items).canonical = .array (items.map canonical) := by
  rw [canonical, canonicalItems_eq_map]

/-- `canonical` is idempotent. -/
@[simp] theorem canonical_canonical (v : Value) : v.canonical.canonical = v.canonical := by
  induction v using nestedInduction with
  | null | bool | number | string => rfl
  | array items ih =>
    rw [canonical_array, canonical_array, List.map_map]
    exact congrArg array (List.map_congr_left ih)
  | object fields ih =>
    rw [canonical_object, canonical_object, sortFields_map,
      sortFields_of_ascending (ascending_sortFields fields), List.map_map]
    refine congrArg object (List.map_congr_left fun field hfield => ?_)
    exact Prod.ext rfl (ih field (mem_sortFields hfield))

theorem Exact.canonical {v : Value} (h : v.Exact) : v.canonical.Exact := by
  induction v using nestedInduction with
  | null | bool | number | string => exact h
  | array items ih =>
    rw [canonical_array]
    refine exactItems_iff.mpr fun v hv => ?_
    obtain ⟨w, hw, rfl⟩ := List.mem_map.mp hv
    exact ih w hw (exactItems_iff.mp h w hw)
  | object fields ih =>
    obtain ⟨hnames, hfields⟩ := h
    rw [canonical_object]
    refine ⟨?_, exactFields_iff.mpr fun field hfield => ?_⟩
    · rw [List.map_map]
      exact ((sortFields_perm hnames).map (·.1)).nodup_iff.mpr hnames
    · obtain ⟨other, hother, rfl⟩ := List.mem_map.mp hfield
      have hother := mem_sortFields hother
      exact ih other hother (exactFields_iff.mp hfields other hother)

/-- `canonical` keeps the `depth`. -/
theorem Exact.depth_canonical {v : Value} (h : v.Exact) : v.canonical.depth = v.depth := by
  induction v using nestedInduction with
  | null | bool | number | string => rfl
  | array items ih =>
    rw [canonical_array, depth, depth, Nat.add_right_cancel_iff]
    refine eq_of_forall_ge_iff fun d => ?_
    rw [itemsDepth_le_iff, itemsDepth_le_iff, List.forall_mem_map]
    exact forall₂_congr fun v hv => by rw [ih v hv (exactItems_iff.mp h v hv)]
  | object fields ih =>
    obtain ⟨hnames, hfields⟩ := h
    rw [canonical_object, depth, depth, Nat.add_right_cancel_iff]
    refine eq_of_forall_ge_iff fun d => ?_
    rw [fieldsDepth_le_iff, fieldsDepth_le_iff, List.forall_mem_map]
    simp only [(sortFields_perm hnames).mem_iff]
    refine forall₂_congr fun field hfield => ?_
    rw [Prod.map_snd, ih field hfield (exactFields_iff.mp hfields field hfield)]

/-- `null` in `n` arrays. -/
def nested : Nat → Value
  | 0 => .null
  | n + 1 => .array [nested n]

theorem exact_nested (n : Nat) : (nested n).Exact := by
  induction n with
  | zero => trivial
  | succ n ih => exact ⟨ih, trivial⟩

@[simp] theorem depth_nested (n : Nat) : (nested n).depth = n := by
  induction n with
  | zero => rfl
  | succ n ih => rw [nested, depth, itemsDepth, itemsDepth, ih, Nat.max_zero]

@[simp] theorem canonical_nested (n : Nat) : (nested n).canonical = nested n := by
  induction n with
  | zero => rfl
  | succ n ih => rw [nested, canonical_array, List.map_singleton, ih]

end Value

end SessionCache.Json
