import Mathlib.Data.List.Forall2
import SessionCache.Proofs.Json.Canonical
import SessionCache.Proofs.Json.Reading

/-!
# Compact texts

What is written of an exact value without blanks reads back as that value, as long as the value
nests no deeper than the reader goes.

* `Value.ReadsAs`: a document is what the text of a value reads as, wherever that text stands.
* `Value.MeansAt`: a document means the canonical form of a value, down to the depth that the value
  needs.
* `Value.Exact.exists_tree`: the text of an exact value reads as a document that means it.
-/

namespace SessionCache.Json

open Text

namespace Tree

variable {fuel : Nat} {tree : Tree} {body rest rest' : List Letter}

/-! ## Integers -/

/-- The values of decimal digits. -/
def digitValues (cs : List Char) : List Nat := cs.map fun c => c.toNat - 48

theorem digit?_of_isDigit {c : Char} (h : c.isDigit = true) : digit? (some c) = some (c.toNat - 48) :=
  if_pos (by simpa [Char.isDigit, Char.le_def] using h)

theorem digits_map {cs : List Char} (h : ∀ c ∈ cs, c.isDigit = true) :
    digits (cs.map some) = (digitValues cs, []) := by
  induction cs with
  | nil => rfl
  | cons c cs ih =>
    have hc := digit?_of_isDigit (h c List.mem_cons_self)
    have ih := ih fun c hc => h c (List.mem_cons_of_mem _ hc)
    simp only [digits, Prod.mk.injEq] at ih ⊢
    simp [hc, ih.1, ih.2, digitValues]

theorem isDigit_of_mem_toDigits {n : Nat} {c : Char} (h : c ∈ Nat.toDigits 10 n) :
    c.isDigit = true :=
  Nat.isDigit_of_mem_toDigits (by decide) (by decide) h

/-- `Nat.toDigits` has no leading zero. -/
theorem toDigits_head {n : Nat} (h : 0 < n) : ∀ c ∈ (Nat.toDigits 10 n).head?, c ≠ '0' := by
  induction n using Nat.strongRecOn with
  | ind n ih =>
    rcases Nat.lt_or_ge n 10 with hlt | hge
    · rw [Nat.toDigits_of_lt_base hlt]
      rintro c ⟨⟩
      exact (by decide : ∀ n < 10, 0 < n → n.digitChar ≠ '0') n hlt h
    · obtain ⟨c, cs, heq⟩ := List.exists_cons_of_ne_nil (Nat.toDigits_ne_nil (n := n / 10) (b := 10))
      have hfront := ih (n / 10) (by omega) (by omega)
      rw [Nat.toDigits_of_base_le (by decide) hge]
      rw [heq] at hfront ⊢
      exact hfront

theorem wholePart?_toDigits (n : Nat) :
    wholePart? ((Nat.toDigits 10 n).map some) = some (digitValues (Nat.toDigits 10 n), []) := by
  rw [wholePart?, digits_map fun _ => isDigit_of_mem_toDigits]
  rcases Nat.eq_zero_or_pos n with rfl | hpos
  · rfl
  · have hhead := toDigits_head hpos
    obtain ⟨c, cs, heq⟩ := List.exists_cons_of_ne_nil (Nat.toDigits_ne_nil (n := n) (b := 10))
    have hdigit : c.isDigit = true := isDigit_of_mem_toDigits (heq ▸ List.mem_cons_self)
    have hc : c.toNat - 48 ≠ 0 := by
      intro hzero
      obtain ⟨hlow, -⟩ := Char.isDigit_iff_toNat.mp hdigit
      refine hhead c (heq ▸ rfl) (Char.toNat_inj.mp ?_)
      simp only [Char.reduceToNat] at hlow ⊢
      omega
    rw [heq, digitValues, List.map_cons]
    generalize c.toNat - 48 = d at hc ⊢
    generalize (cs.map fun c => c.toNat - 48) = ds
    split
    · next h => cases h
    · next h => cases h; exact absurd rfl hc
    · next h => cases h; rfl

/-- The `Numeral` of an integer. -/
def wholeNumeral (negative : Bool) (n : Nat) : Numeral :=
  ⟨negative, digitValues (Nat.toDigits 10 n), [], none⟩

theorem magnitude?_toDigits (negative : Bool) (n : Nat) :
    magnitude? negative ((Nat.toDigits 10 n).map some) = some (wholeNumeral negative n, []) := by
  rw [magnitude?, wholePart?_toDigits]
  rfl

theorem gather_digitValues {cs : List Char} {n : Nat} (h : Nat.ofDigitChars 10 cs n < twoTo 64) :
    gather n (digitValues cs) = (Nat.ofDigitChars 10 cs n, []) := by
  have hgrows : ∀ (cs : List Char) (n : Nat), n ≤ Nat.ofDigitChars 10 cs n := by
    intro cs
    induction cs with
    | nil => exact fun n => Nat.le_refl n
    | cons c cs ih =>
      intro n
      rw [Nat.ofDigitChars_cons]
      exact Nat.le_trans (by omega) (ih _)
  induction cs generalizing n with
  | nil => rfl
  | cons c cs ih =>
    rw [Nat.ofDigitChars_cons, Nat.mul_comm 10 n] at h ⊢
    change gather n ((c.toNat - '0'.toNat) :: digitValues cs) = _
    rw [gather, if_pos (Nat.lt_of_le_of_lt (hgrows cs _) h)]
    exact ih h

/-- `toNumber?` of the `wholeNumeral` of a 64-bit integer is that integer. -/
theorem toNumber?_wholeNumeral {n : Int} (h : (Number.int n).IsWord) :
    (wholeNumeral (decide (n < 0)) n.natAbs).toNumber? = some (.int n) := by
  have hbounds : twoTo 64 = 18446744073709551616 ∧ twoTo 63 = 9223372036854775808 := ⟨rfl, rfl⟩
  have hlt : n.natAbs < twoTo 64 := by
    unfold Number.IsWord at h
    omega
  have hgather : gather 0 (digitValues (Nat.toDigits 10 n.natAbs)) = (n.natAbs, []) := by
    have hvalue := Nat.ofDigitChars_ten_toDigits (n := n.natAbs)
    rw [gather_digitValues (by rwa [hvalue]), hvalue]
  have hvalue : (if decide (n < 0) = true then -(n.natAbs : Int) else (n.natAbs : Int)) = n := by
    simp only [decide_eq_true_eq]
    split <;> omega
  have hzero : ¬(decide (n < 0) = true ∧ n.natAbs = 0) := by
    rw [decide_eq_true_eq]
    omega
  have hint : (wholeNumeral (decide (n < 0)) n.natAbs).int? = some n := by
    rw [Numeral.int?, wholeNumeral]
    simp only [hgather, hvalue]
    exact if_pos ⟨trivial, trivial, trivial, h, hzero⟩
  rw [Numeral.toNumber?, hint]

theorem toList_toString (n : Int) :
    (toString n).toList = (if n < 0 then ['-'] else []) ++ Nat.toDigits 10 n.natAbs := by
  cases n with
  | ofNat n =>
    rw [if_neg (show ¬Int.ofNat n < 0 from Int.not_lt.mpr (Int.natCast_nonneg n))]
    exact Nat.toList_repr
  | negSucc n =>
    rw [if_pos (Int.negSucc_lt_zero n)]
    change ("-" ++ (n + 1).repr).toList = _
    rw [String.toList_append, Nat.toList_repr]
    rfl

/-- An integer is printed with a digit or `-` in front. -/
theorem toString_eq_cons (n : Int) :
    ∃ c cs, (toString n).toList = c :: cs ∧ (c = '-' ∨ c.isDigit = true) := by
  rw [toList_toString]
  split
  · exact ⟨'-', _, rfl, .inl rfl⟩
  · obtain ⟨c, cs, heq⟩ := List.exists_cons_of_ne_nil (Nat.toDigits_ne_nil (n := n.natAbs) (b := 10))
    exact ⟨c, cs, heq, .inr (isDigit_of_mem_toDigits (heq ▸ List.mem_cons_self))⟩

/-- `numeral?` reads a printed integer up to a letter that `Breaks` it off. -/
theorem numeral?_toString (n : Int) {more : List Letter} (hm : Breaks more) :
    numeral? ((toString n).toList.map some ++ more) =
      some (wholeNumeral (decide (n < 0)) n.natAbs, more) := by
  have hread : numeral? ((toString n).toList.map some) =
      some (wholeNumeral (decide (n < 0)) n.natAbs, []) := by
    rw [toList_toString]
    split
    · next hneg =>
      rw [decide_eq_true hneg]
      exact magnitude?_toDigits true n.natAbs
    · next hpos =>
      rw [decide_eq_false hpos, List.nil_append]
      obtain ⟨c, cs, heq⟩ :=
        List.exists_cons_of_ne_nil (Nat.toDigits_ne_nil (n := n.natAbs) (b := 10))
      have hdigit : c.isDigit = true := isDigit_of_mem_toDigits (heq ▸ List.mem_cons_self)
      have hdigits := magnitude?_toDigits false n.natAbs
      rw [heq, List.map_cons] at hdigits ⊢
      rw [numeral?_unsigned, hdigits]
      rintro ⟨⟩
      exact absurd hdigit (by decide)
  exact numeral?_append hm hread

/-! ## Fields -/

section Fields

variable {acc : List (Option String × Tree)}

theorem value?_quote (fuel : Nat) (s : String) (rest : List Letter) :
    value? (fuel + 1) ((quote s).map some ++ rest) = some (.string (some s), rest) := by
  obtain ⟨body, hquote, hbody⟩ := stringRest_quote s rest
  rw [hquote, value?]
  change (stringRest [] true none body).map _ = _
  rw [hbody]
  rfl

theorem skipBlank_quote (rest : List Letter) : skipBlank (some '"' :: rest) = some '"' :: rest := rfl

theorem skipBlank_colon (rest : List Letter) : skipBlank (some ':' :: rest) = some ':' :: rest := rfl

theorem skipBlank_brace (rest : List Letter) :
    skipBlank (some '\x7b' :: rest) = some '\x7b' :: rest := rfl

/-- `fields?` at a field and a comma. -/
theorem fields?_comma (name : String) (h : value? fuel body = some (tree, rest))
    (hs : skipBlank rest = some ',' :: rest') :
    fields? (fuel + 1) acc ((quote name).map some ++ some ':' :: body) =
      fields? fuel ((some name, tree) :: acc) rest' := by
  obtain ⟨quoted, hquote, hquoted⟩ := stringRest_quote name (some ':' :: body)
  rw [hquote, fields?]
  simp only [skipBlank_quote, hquoted, skipBlank_colon, h, hs]

/-- `fields?` at a field and the closing brace. -/
theorem fields?_brace (name : String) (h : value? fuel body = some (tree, rest))
    (hs : skipBlank rest = some '\x7d' :: rest') :
    fields? (fuel + 1) acc ((quote name).map some ++ some ':' :: body) =
      some (((some name, tree) :: acc).reverse, rest') := by
  obtain ⟨quoted, hquote, hquoted⟩ := stringRest_quote name (some ':' :: body)
  rw [hquote, fields?]
  simp only [skipBlank_quote, hquoted, skipBlank_colon, h, hs]

/-- `value?` at an object whose first field is given. -/
theorem value?_object {name : String} {fields : List (Option String × Tree)}
    (h : fields? fuel [] ((quote name).map some ++ body) = some (fields, rest)) :
    value? (fuel + 1) (some '\x7b' :: ((quote name).map some ++ body)) =
      some (.object fields, rest) := by
  have hquote : ∃ quoted, (quote name).map some ++ body = some '"' :: quoted := ⟨_, rfl⟩
  obtain ⟨quoted, hquote⟩ := hquote
  rw [hquote] at h ⊢
  rw [value?]
  simp only [skipBlank_brace, skipBlank_quote]
  split
  · next heq => cases heq
  · rw [h]
    rfl

end Fields

/-! ## Items -/

theorem skipBlank_of_not_blank {l : Letter} (h : isBlank l = false) (rest : List Letter) :
    skipBlank (l :: rest) = l :: rest := by
  rw [skipBlank, List.dropWhile_cons_of_neg (by simp [h])]

/-- A number does not begin with a blank. -/
theorem isBlank_of_sign {c : Char} (h : c = '-' ∨ c.isDigit = true) : isBlank (some c) = false := by
  rw [Bool.eq_false_iff]
  intro hblank
  simp only [isBlank, Bool.or_eq_true, beq_iff_eq, Option.some.injEq] at hblank
  rcases hblank with ((rfl | rfl) | rfl) | rfl <;> simp at h

/-- `value?` at a digit or `-` is `numeral?`. -/
theorem value?_numeral {c : Char} (h : c = '-' ∨ c.isDigit = true) (fuel : Nat)
    (rest : List Letter) :
    value? (fuel + 1) (some c :: rest) =
      (numeral? (some c :: rest)).map fun (n, rest) => (.number n, rest) := by
  rw [value?, skipBlank_of_not_blank (isBlank_of_sign h)]
  split <;> first | rfl | (next heq => cases heq; simp at h)

/-- `items?` at an item and a comma. -/
theorem items?_comma {acc : List Tree} (h : value? fuel body = some (tree, rest))
    (hs : skipBlank rest = some ',' :: rest') :
    items? (fuel + 1) acc body = items? fuel (tree :: acc) rest' := by
  rw [items?]
  simp only [h, hs]

/-- `items?` at an item and the closing bracket. -/
theorem items?_bracket {acc : List Tree} (h : value? fuel body = some (tree, rest))
    (hs : skipBlank rest = some ']' :: rest') :
    items? (fuel + 1) acc body = some ((tree :: acc).reverse, rest') := by
  rw [items?]
  simp only [h, hs]

/-- `value?` at an array whose first item is given. -/
theorem value?_array {l : Letter} {items : List Tree} (hblank : isBlank l = false)
    (hclose : l ≠ some ']') (h : items? fuel [] (l :: body) = some (items, rest)) :
    value? (fuel + 1) (some '[' :: l :: body) = some (.array items, rest) := by
  rw [value?]
  simp only [skipBlank_of_not_blank (show isBlank (some '[') = false from rfl),
    skipBlank_of_not_blank hblank]
  split
  · next heq => exact absurd (List.cons.inj heq).1 hclose
  · rw [h]
    rfl

end Tree

namespace Value

/-! ## Values -/

/-- `value?` reads the text of `v` as `tree`, in front of any letters that `Breaks` a number off. -/
def ReadsAs (v : Value) (tree : Tree) : Prop :=
  ∀ (fuel : Nat) (more : List Letter), Tree.Breaks more → v.compactChars.length < fuel →
    Tree.value? fuel (v.compactChars.map some ++ more) = some (tree, more)

/-- The same for a field. -/
def FieldReadsAs (field : String × Value) (written : Option String × Tree) : Prop :=
  written.1 = some field.1 ∧ field.2.ReadsAs written.2

/-- A comma and the closing brackets `Breaks` a number off. -/
theorem breaks_cons {c : Char} (h : c = ',' ∨ c = ']' ∨ c = '\x7d') (more : List Letter) :
    Tree.Breaks (some c :: more) := by
  rintro l ⟨⟩
  rcases h with rfl | rfl | rfl <;> exact ⟨rfl, nofun, nofun, nofun⟩

theorem Exact.compactChars_eq_cons {v : Value} (h : v.Exact) :
    ∃ c cs, v.compactChars = c :: cs ∧ Tree.isBlank (some c) = false ∧ c ≠ ']' := by
  cases v with
  | null => exact ⟨_, _, rfl, rfl, nofun⟩
  | bool b => cases b <;> exact ⟨_, _, rfl, rfl, nofun⟩
  | number n =>
    cases n with
    | int n =>
      obtain ⟨c, cs, heq, hc⟩ := Tree.toString_eq_cons n
      refine ⟨c, cs, heq, Tree.isBlank_of_sign hc, ?_⟩
      rintro rfl
      simp at hc
    | double x => exact h.elim
  | string s => exact ⟨_, _, rfl, rfl, nofun⟩
  | array items => exact ⟨_, _, rfl, rfl, nofun⟩
  | object fields => exact ⟨_, _, rfl, rfl, nofun⟩

theorem items?_of_readsAs {items : List Value} {trees : List Tree}
    (h : List.Forall₂ ReadsAs items trees) (hne : items ≠ []) (more : List Letter) {fuel : Nat}
    (acc : List Tree) (hfuel : (commaSeparated (compactItems items)).length + 1 < fuel) :
    Tree.items? fuel acc ((commaSeparated (compactItems items)).map some ++ some ']' :: more) =
      some (acc.reverse ++ trees, more) := by
  induction h generalizing acc fuel with
  | nil => exact absurd rfl hne
  | @cons v tree rest trees hv hrest ih =>
    obtain ⟨fuel, rfl⟩ := Nat.exists_eq_add_one_of_ne_zero (Nat.ne_zero_of_lt hfuel)
    cases hrest with
    | nil =>
      simp only [compactItems, commaSeparated] at hfuel ⊢
      rw [Tree.items?_bracket (hv fuel _ (breaks_cons (by simp) more) (by omega)) rfl,
        List.reverse_cons]
    | @cons w tree' rest trees hw hrest =>
      simp only [compactItems, commaSeparated, List.length_append, List.length_cons] at hfuel ih ⊢
      rw [List.map_append, List.append_assoc, List.map_cons, List.cons_append,
        Tree.items?_comma (hv fuel _ (breaks_cons (by simp) _) (by omega)) rfl,
        ih (List.cons_ne_nil _ _) _ (by omega), List.reverse_cons, List.append_assoc]
      rfl

theorem fields?_of_readsAs {fields : List (String × Value)}
    {trees : List (Option String × Tree)} (h : List.Forall₂ FieldReadsAs fields trees)
    (hne : fields ≠ []) (more : List Letter) {fuel : Nat} (acc : List (Option String × Tree))
    (hfuel : (commaSeparated (compactFields fields)).length + 1 < fuel) :
    Tree.fields? fuel acc
        ((commaSeparated (compactFields fields)).map some ++ some '\x7d' :: more) =
      some (acc.reverse ++ trees, more) := by
  induction h generalizing acc fuel with
  | nil => exact absurd rfl hne
  | @cons field written rest trees hfield hrest ih =>
    obtain ⟨name, v⟩ := field
    obtain ⟨name', tree⟩ := written
    obtain ⟨rfl, hv⟩ : name' = some name ∧ v.ReadsAs tree := hfield
    obtain ⟨fuel, rfl⟩ := Nat.exists_eq_add_one_of_ne_zero (Nat.ne_zero_of_lt hfuel)
    cases hrest with
    | nil =>
      simp only [compactFields, commaSeparated, List.length_append, List.length_cons] at hfuel ⊢
      rw [List.map_append, List.append_assoc, List.map_cons, List.cons_append,
        Tree.fields?_brace name (hv fuel _ (breaks_cons (by simp) more) (by omega)) rfl,
        List.reverse_cons]
    | @cons field' written' rest trees hfield' hrest =>
      simp only [compactFields, commaSeparated, List.length_append, List.length_cons] at hfuel ih ⊢
      simp only [List.map_append, List.append_assoc, List.map_cons, List.cons_append] at ih ⊢
      rw [Tree.fields?_comma name (hv fuel _ (breaks_cons (by simp) _) (by omega)) rfl,
        ih (List.cons_ne_nil _ _) _ (by omega), List.reverse_cons, List.append_assoc]
      rfl

theorem readsAs_int {n : Int} :
    (number (.int n)).ReadsAs (.number (Tree.wholeNumeral (decide (n < 0)) n.natAbs)) := by
  rintro (_ | fuel) more hm hfuel
  · cases hfuel
  · obtain ⟨c, cs, heq, hc⟩ := Tree.toString_eq_cons n
    have hread := Tree.numeral?_toString n hm
    change Tree.value? (fuel + 1) ((toString n).toList.map some ++ more) = _
    rw [heq, List.map_cons, List.cons_append] at hread ⊢
    rw [Tree.value?_numeral hc, hread]
    rfl

theorem readsAs_string (s : String) : (string s).ReadsAs (.string (some s)) := by
  rintro (_ | fuel) more - hfuel
  · cases hfuel
  · exact Tree.value?_quote fuel s more

theorem readsAs_array {items : List Value} {trees : List Tree} (h : ExactItems items)
    (hread : List.Forall₂ ReadsAs items trees) : (array items).ReadsAs (.array trees) := by
  rintro (_ | fuel) more - hfuel
  · cases hfuel
  · cases items with
    | nil =>
      cases hread
      rfl
    | cons v rest =>
      rw [compactChars, List.length_cons, List.length_append, List.length_singleton] at hfuel
      have henough : (commaSeparated (compactItems (v :: rest))).length + 1 < fuel := by omega
      have hitems := items?_of_readsAs hread (List.cons_ne_nil v rest) more [] henough
      obtain ⟨c, cs, heq, hblank, hclose⟩ := h.1.compactChars_eq_cons
      obtain ⟨cs', heq'⟩ : ∃ cs', commaSeparated (compactItems (v :: rest)) = c :: cs' := by
        cases rest <;> simp [compactItems, commaSeparated, heq]
      simp only [compactChars, heq', List.map_cons, List.map_append, List.cons_append,
        List.append_assoc] at hitems ⊢
      exact Tree.value?_array hblank (fun he => hclose (Option.some.inj he)) hitems

theorem readsAs_object {fields : List (String × Value)} {trees : List (Option String × Tree)}
    (hread : List.Forall₂ FieldReadsAs fields trees) :
    (object fields).ReadsAs (.object trees) := by
  rintro (_ | fuel) more - hfuel
  · cases hfuel
  · cases fields with
    | nil =>
      cases hread
      rfl
    | cons field rest =>
      rw [compactChars, List.length_cons, List.length_append, List.length_singleton] at hfuel
      have henough : (commaSeparated (compactFields (field :: rest))).length + 1 < fuel := by omega
      have hfields := fields?_of_readsAs hread (List.cons_ne_nil field rest) more [] henough
      obtain ⟨cs, heq⟩ : ∃ cs, commaSeparated (compactFields (field :: rest)) =
          quote field.1 ++ cs := by
        cases rest <;> simp [compactFields, commaSeparated]
      simp only [compactChars, heq, List.map_cons, List.map_append, List.cons_append,
        List.append_assoc] at hfields ⊢
      exact Tree.value?_object hfields

/-- `tree.toValue? depth` is `v.canonical` if `v.depth ≤ depth`, else `none`. -/
def MeansAt (depth : Nat) (v : Value) (tree : Tree) : Prop :=
  tree.toValue? depth = if v.depth ≤ depth then some v.canonical else none

mutual

/-- The text of an `Exact` value reads as a tree that means it at every depth. -/
theorem Exact.exists_tree : ∀ {v : Value}, v.Exact →
    ∃ tree, v.ReadsAs tree ∧ ∀ d, v.MeansAt d tree
  | .null, _ => ⟨.null, by rintro (_ | fuel) more - hfuel <;> [cases hfuel; rfl], fun _ => rfl⟩
  | .bool b, _ => by
    refine ⟨.bool b, ?_, fun _ => rfl⟩
    rintro (_ | fuel) more - hfuel
    · cases hfuel
    · cases b <;> rfl
  | .string s, _ => ⟨.string (some s), readsAs_string s, fun _ => rfl⟩
  | .number (.int n), h => by
    refine ⟨_, readsAs_int, fun d => ?_⟩
    rw [MeansAt, Tree.toValue?, Tree.toNumber?_wholeNumeral h]
    rfl
  | .array items, h => by
    obtain ⟨trees, hread, hmeans⟩ := exists_trees h
    refine ⟨.array trees, readsAs_array h hread, ?_⟩
    rintro (_ | d)
    · rw [MeansAt, Tree.toValue?, depth, if_neg (Nat.not_succ_le_zero _)]
    · rw [MeansAt, Tree.toValue?, hmeans, depth, canonical]
      simp only [Nat.add_le_add_iff_right]
      split <;> rfl
  | .object fields, h => by
    obtain ⟨trees, hread, hmeans⟩ := exists_fields h.2
    refine ⟨.object trees, readsAs_object hread, ?_⟩
    rintro (_ | d)
    · rw [MeansAt, Tree.toValue?, depth, if_neg (Nat.not_succ_le_zero _)]
    · rw [MeansAt, Tree.toValue?, hmeans, depth, canonical]
      simp only [Nat.add_le_add_iff_right]
      split <;> rfl

theorem exists_trees : ∀ {items : List Value}, ExactItems items →
    ∃ trees, List.Forall₂ ReadsAs items trees ∧ ∀ d, Tree.itemsToValues? d trees =
      if itemsDepth items ≤ d then some (canonicalItems items) else none
  | [], _ => ⟨[], .nil, fun _ => rfl⟩
  | v :: rest, h => by
    obtain ⟨tree, hread, hmeans⟩ := Exact.exists_tree h.1
    obtain ⟨trees, hreads, hmean⟩ := exists_trees h.2
    refine ⟨tree :: trees, .cons hread hreads, fun d => ?_⟩
    rw [Tree.itemsToValues?, hmeans, hmean, itemsDepth, canonicalItems]
    simp only [Nat.max_le]
    by_cases hv : v.depth ≤ d
    · by_cases hr : itemsDepth rest ≤ d
      · simp [hv, hr]
      · simp [hv, hr]
    · simp [hv]

theorem exists_fields : ∀ {fields : List (String × Value)}, ExactFields fields →
    ∃ trees, List.Forall₂ FieldReadsAs fields trees ∧ ∀ d, Tree.fieldsToValues? d trees =
      if fieldsDepth fields ≤ d then some (canonicalFields fields) else none
  | [], _ => ⟨[], .nil, fun _ => rfl⟩
  | (name, v) :: rest, h => by
    obtain ⟨tree, hread, hmeans⟩ := Exact.exists_tree h.1
    obtain ⟨trees, hreads, hmean⟩ := exists_fields h.2
    refine ⟨(some name, tree) :: trees, .cons ⟨rfl, hread⟩ hreads, fun d => ?_⟩
    rw [Tree.fieldsToValues?, hmeans, hmean, fieldsDepth, canonicalFields]
    simp only [Nat.max_le]
    by_cases hv : v.depth ≤ d
    · by_cases hr : fieldsDepth rest ≤ d
      · simp [hv, hr]
      · simp [hv, hr]
    · simp [hv]

end

theorem ofText_compact (v : Value) : Letters.ofText v.compact = v.compactChars.map some := by
  rw [Letters.ofText, compact, String.toList_ofList]

/-- `parse?` reads all of the text. -/
theorem ReadsAs.parse?_compact {v : Value} {tree : Tree} (h : v.ReadsAs tree) :
    Tree.parse? (Letters.ofText v.compact) = some tree := by
  have hread := h (v.compactChars.length + 1) [] nofun (Nat.lt_succ_self _)
  rw [List.append_nil] at hread
  rw [ofText_compact, Tree.parse?, List.length_map, hread]
  rfl

end Value

end SessionCache.Json
