import SessionCache.Session.Key
import Mathlib.Data.List.Forall2

/-!
# Spellings of keys

A key may be spelled in four ways, with its digits in either case. The reader takes these texts and
no others: nothing may stand around them, and no hyphen may be missing or in another place.

* `Text.Hex.Shows`: a character stands for a digit.
* `Key.Grouped`: digits in groups, with hyphens between the groups.
* `Key.Spelling`: the spellings of a key.
* `Key.ofChars?_eq_some_iff`: a text is read as a key exactly if it is a spelling of it.
-/

namespace SessionCache

namespace Text.Hex

/-- `c` is the hex digit `d`, in either case. -/
def Shows (d : Fin 16) (c : Char) : Prop := c = digit d ∨ c = upperDigit d

theorem shows_of_value? {c : Char} {d : Fin 16} (h : value? c = some d) : Shows d c := by
  have hdecimal : ∀ n < 58, 48 ≤ n → Char.ofNat n = digit (Fin.ofNat 16 (n - 48)) := by decide
  have hlower : ∀ n < 103, 97 ≤ n → Char.ofNat n = digit (Fin.ofNat 16 (n - 87)) := by decide
  have hupper : ∀ n < 71, 65 ≤ n → Char.ofNat n = upperDigit (Fin.ofNat 16 (n - 55)) := by decide
  have hc := Char.ofNat_toNat c
  unfold value? at h
  split at h
  · next hrange =>
    obtain rfl := Option.some.inj h
    exact .inl (hc.symm.trans (hdecimal _ (Nat.lt_succ_of_le hrange.2) hrange.1))
  · split at h
    · next hrange =>
      obtain rfl := Option.some.inj h
      exact .inl (hc.symm.trans (hlower _ (Nat.lt_succ_of_le hrange.2) hrange.1))
    · split at h
      · next hrange =>
        obtain rfl := Option.some.inj h
        exact .inr (hc.symm.trans (hupper _ (Nat.lt_succ_of_le hrange.2) hrange.1))
      · cases h

theorem Shows.value? {c : Char} {d : Fin 16} (h : Shows d c) : value? c = some d := by
  obtain rfl | rfl := h <;> revert d <;> decide

/-- A hex digit is neither `\x7b` nor `u`. -/
theorem Shows.ne {c : Char} {d : Fin 16} (h : Shows d c) : c ≠ '\x7b' ∧ c ≠ 'u' := by
  obtain rfl | rfl := h <;> revert d <;> decide

end Text.Hex

namespace Key

open Text

variable {key : Key} {sizes : List Nat} {n m : Nat} {ds front back : List (Fin 16)}
  {cs piece rest : List Char}

/-! ## Digits in groups -/

/-- `cs` are the hex digits `ds`, in either case. -/
abbrev Shown (ds : List (Fin 16)) (cs : List Char) : Prop := List.Forall₂ Hex.Shows ds cs

theorem Shown.readDigits (h : Shown ds cs) (rest : List Char) :
    readDigits ds.length (cs ++ rest) = some (ds, rest) := by
  induction h with
  | nil => rfl
  | cons hd _ ih => simp [Key.readDigits, hd.value?, ih]

theorem shown_of_readDigits (h : readDigits n cs = some (ds, rest)) :
    ds.length = n ∧ ∃ piece, cs = piece ++ rest ∧ Shown ds piece := by
  induction n generalizing cs ds rest with
  | zero =>
    cases h
    exact ⟨rfl, [], rfl, .nil⟩
  | succ n ih =>
    cases cs with
    | nil => cases h
    | cons c cs =>
      simp only [readDigits, Option.bind_eq_bind, Option.bind_eq_some_iff] at h
      obtain ⟨d, hd, ⟨ds', rest'⟩, hread, heq⟩ := h
      obtain ⟨hlength, piece, rfl, hshown⟩ := ih hread
      cases heq
      exact ⟨congrArg (· + 1) hlength, c :: piece, rfl, .cons (Hex.shows_of_value? hd) hshown⟩

/-- `cs` are the hex digits `ds` in groups of `sizes`, with a hyphen between two groups. -/
def Grouped (sizes : List Nat) (ds : List (Fin 16)) (cs : List Char) : Prop :=
  ∃ pieces : List (List Char), pieces.map List.length = sizes ∧ cs = ['-'].intercalate pieces ∧
    Shown ds pieces.flatten

theorem grouped_nil_iff : Grouped [] ds cs ↔ ds = [] ∧ cs = [] := by
  constructor
  · rintro ⟨pieces, hsizes, rfl, h⟩
    obtain rfl := List.map_eq_nil_iff.mp hsizes
    exact ⟨List.forall₂_nil_right_iff.mp h, rfl⟩
  · rintro ⟨rfl, rfl⟩
    exact ⟨[], rfl, rfl, .nil⟩

theorem grouped_singleton_iff : Grouped [n] ds cs ↔ ds.length = n ∧ Shown ds cs := by
  constructor
  · rintro ⟨pieces, hsizes, rfl, h⟩
    obtain ⟨piece, rfl, rfl⟩ : ∃ piece, pieces = [piece] ∧ piece.length = n := by simpa using hsizes
    rw [List.flatten_singleton] at h
    exact ⟨h.length_eq, by rwa [List.intercalate_singleton]⟩
  · rintro ⟨rfl, h⟩
    exact ⟨[cs], by simp [h.length_eq], List.intercalate_singleton.symm, by simpa using h⟩

theorem Grouped.cons (hfront : Shown front piece) (hback : Grouped (n :: sizes) back rest) :
    Grouped (front.length :: n :: sizes) (front ++ back) (piece ++ '-' :: rest) := by
  obtain ⟨pieces, hsizes, rfl, hback⟩ := hback
  obtain ⟨next, others, rfl, -, -⟩ := List.map_eq_cons_iff.mp hsizes
  refine ⟨piece :: next :: others, ?_, ?_, List.rel_append hfront hback⟩
  · rw [List.map_cons, hsizes, hfront.length_eq]
  · rw [List.intercalate_cons_cons, List.append_assoc, List.singleton_append]

theorem Grouped.exists_cons (h : Grouped (n :: m :: sizes) ds cs) :
    ∃ front back piece rest, ds = front ++ back ∧ cs = piece ++ '-' :: rest ∧ front.length = n ∧
      Shown front piece ∧ Grouped (m :: sizes) back rest := by
  obtain ⟨pieces, hsizes, rfl, h⟩ := h
  obtain ⟨piece, others, rfl, rfl, hothers⟩ := List.map_eq_cons_iff.mp hsizes
  obtain ⟨next, last, rfl, -, -⟩ := List.map_eq_cons_iff.mp hothers
  have hfront := List.forall₂_take_append ds piece _ h
  refine ⟨_, _, piece, _, (List.take_append_drop piece.length ds).symm, ?_, hfront.length_eq, hfront,
    next :: last, hothers, rfl, List.forall₂_drop_append ds piece _ h⟩
  rw [List.intercalate_cons_cons, List.append_assoc, List.singleton_append]

theorem Grouped.exists_head (h : Grouped ((n + 1) :: sizes) ds cs) :
    ∃ c rest, cs = c :: rest ∧ c ≠ '\x7b' ∧ c ≠ 'u' := by
  obtain ⟨pieces, hsizes, rfl, h⟩ := h
  obtain ⟨piece, others, rfl, hlength, -⟩ := List.map_eq_cons_iff.mp hsizes
  obtain ⟨c, piece, rfl⟩ := List.exists_cons_of_length_eq_add_one hlength
  rw [List.flatten_cons, List.cons_append] at h
  cases h with
  | cons hd _ =>
    cases others with
    | nil => exact ⟨c, piece, List.intercalate_singleton, hd.ne⟩
    | cons next others => exact ⟨c, _, by rw [List.intercalate_cons_cons]; rfl, hd.ne⟩

theorem Grouped.length_eq (h : Grouped sizes ds cs) :
    cs.length = totalSize sizes + (sizes.length - 1) := by
  induction sizes generalizing ds cs with
  | nil =>
    obtain ⟨-, rfl⟩ := grouped_nil_iff.mp h
    rfl
  | cons n sizes ih =>
    cases sizes with
    | nil =>
      obtain ⟨rfl, hshown⟩ := grouped_singleton_iff.mp h
      exact hshown.length_eq.symm
    | cons m sizes =>
      obtain ⟨front, back, piece, rest, rfl, rfl, rfl, hfront, hback⟩ := h.exists_cons
      have hrest := ih hback
      simp only [List.length_append, List.length_cons, totalSize, hfront.length_eq] at hrest ⊢
      omega

/-- `readGroups` reads exactly what is `Grouped`. -/
theorem readGroups_eq_some_iff : readGroups sizes cs = some ds ↔ Grouped sizes ds cs := by
  induction sizes generalizing cs ds with
  | nil =>
    rw [grouped_nil_iff]
    cases cs <;> simp [readGroups, eq_comm]
  | cons n sizes ih =>
    cases sizes with
    | nil =>
      rw [grouped_singleton_iff]
      constructor
      · intro h
        simp only [readGroups, Option.bind_eq_bind, Option.bind_eq_some_iff] at h
        obtain ⟨⟨ds', rest⟩, hread, h⟩ := h
        obtain ⟨hlength, piece, rfl, hshown⟩ := shown_of_readDigits hread
        dsimp only at h
        split at h
        · next hrest =>
          cases h
          rw [List.isEmpty_iff.mp hrest, List.append_nil]
          exact ⟨hlength, hshown⟩
        · cases h
      · rintro ⟨rfl, hshown⟩
        have hread := hshown.readDigits []
        rw [List.append_nil] at hread
        simp [readGroups, hread]
    | cons m sizes =>
      constructor
      · intro h
        simp only [readGroups, Option.bind_eq_bind, Option.bind_eq_some_iff] at h
        obtain ⟨⟨front, rest⟩, hread, h⟩ := h
        obtain ⟨rfl, piece, rfl, hfront⟩ := shown_of_readDigits hread
        dsimp only at h
        split at h
        · obtain ⟨back, hback, rfl⟩ := Option.map_eq_some_iff.mp h
          exact .cons hfront (ih.mp hback)
        · cases h
      · intro h
        obtain ⟨front, back, piece, rest, rfl, rfl, rfl, hfront, hback⟩ := h.exists_cons
        simp [readGroups, hfront.readDigits, ih.mpr hback]

/-! ## Texts -/

/-- The texts of `key`: 32 digits, or grouped digits, by themselves, in braces or after
`urn:uuid:`. -/
inductive Spelling (key : Key) : List Char → Prop where
  | hyphenated {cs : List Char} (h : Grouped [8, 4, 4, 4, 12] key.digits.toList cs) : Spelling key cs
  | plain {cs : List Char} (h : Shown key.digits.toList cs) : Spelling key cs
  | braced {cs : List Char} (h : Grouped [8, 4, 4, 4, 12] key.digits.toList cs) :
      Spelling key ('\x7b' :: cs ++ ['\x7d'])
  | urn {cs : List Char} (h : Grouped [8, 4, 4, 4, 12] key.digits.toList cs) :
      Spelling key ("urn:uuid:".toList ++ cs)

theorem ofDigits?_digits (key : Key) : ofDigits? key.digits.toList = some key := by
  rw [ofDigits?, dif_pos key.digits.length_toList]
  rfl

theorem ofDigits?_eq_some_iff : ofDigits? ds = some key ↔ ds = key.digits.toList := by
  constructor
  · intro h
    rw [ofDigits?] at h
    split at h
    · cases h
      rfl
    · cases h
  · rintro rfl
    exact key.ofDigits?_digits

theorem readGroups_bind_eq_some_iff :
    (readGroups sizes cs).bind ofDigits? = some key ↔ Grouped sizes key.digits.toList cs := by
  simp [Option.bind_eq_some_iff, readGroups_eq_some_iff, ofDigits?_eq_some_iff]

/-- `ofChars?` of a text that begins with a hex digit. -/
theorem ofChars?_of_grouped (h : Grouped ((n + 1) :: sizes) ds cs) :
    ofChars? cs = (readGroups [32] cs <|> readGroups groups cs).bind ofDigits? := by
  obtain ⟨c, cs, rfl, hbrace, hname⟩ := h.exists_head
  unfold ofChars?
  split
  · next heq => exact absurd (List.cons.inj heq).1 hbrace
  · next heq => exact absurd (List.cons.inj heq).1 hname
  · rfl

/-- `ofChars?` reads exactly the `Spelling`s of a key. -/
theorem ofChars?_eq_some_iff : ofChars? cs = some key ↔ Spelling key cs := by
  have hplain : Grouped [32] key.digits.toList cs ↔ Shown key.digits.toList cs := by
    rw [grouped_singleton_iff, and_iff_right key.digits.length_toList]
  constructor
  · intro h
    unfold ofChars? at h
    split at h
    · next body =>
      split at h
      · next hlast =>
        have hbody : body = body.dropLast ++ ['\x7d'] := (List.dropLast_append_getLast? _ hlast).symm
        rw [hbody, ← List.cons_append]
        exact .braced (readGroups_bind_eq_some_iff.mp h)
      · cases h
    · exact .urn (readGroups_bind_eq_some_iff.mp h)
    · obtain ⟨ds, hread, h⟩ := Option.bind_eq_some_iff.mp h
      obtain rfl := ofDigits?_eq_some_iff.mp h
      obtain hread | ⟨-, hread⟩ := Option.or_eq_some_iff.mp (Option.orElse_eq_or.symm.trans hread)
      · exact .plain (hplain.mp (readGroups_eq_some_iff.mp hread))
      · exact .hyphenated (readGroups_eq_some_iff.mp hread)
  · intro h
    cases h with
    | hyphenated h =>
      -- With its hyphens the text is too long for 32 digits.
      have hnone : readGroups [32] cs = none := by
        refine Option.eq_none_iff_forall_ne_some.mpr fun ds hread => ?_
        have hlength := (readGroups_eq_some_iff.mp hread).length_eq
        rw [h.length_eq] at hlength
        cases hlength
      rw [ofChars?_of_grouped h, hnone]
      exact readGroups_bind_eq_some_iff.mpr h
    | plain h =>
      rw [ofChars?_of_grouped (hplain.mpr h), readGroups_eq_some_iff.mpr (hplain.mpr h)]
      exact key.ofDigits?_digits
    | @braced body h =>
      have hlast : (body ++ ['\x7d']).getLast? = some '\x7d' := List.getLast?_concat
      rw [List.cons_append, ofChars?, if_pos hlast, List.dropLast_concat]
      exact readGroups_bind_eq_some_iff.mpr h
    | urn h => exact readGroups_bind_eq_some_iff.mpr h

end Key

end SessionCache
