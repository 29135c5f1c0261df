import SessionCache.Proofs.Session.Spelling
import Mathlib.Logic.Function.Basic

/-!
# Texts of keys

A key is written in one way, and what is written reads back as that key.

* `Key.ofText?_text`: a written key reads back.
* `Key.text_injective`: different keys have different texts.
* `Key.grouped_chars`, `Key.lower_of_mem_chars`: a key is written in groups, and in lower case.
-/

namespace SessionCache.Key

open Text

theorem length_digits (key : Key) : key.digits.toList.length = totalSize groups := by
  simp [totalSize, groups]

theorem grouped_chars (key : Key) : Grouped groups key.digits.toList key.chars :=
  readGroups_eq_some_iff.mp (readGroups_writeGroups groups _ key.length_digits)

theorem length_text (key : Key) : key.text.length = 36 := by
  rw [text, String.length_ofList]
  exact key.grouped_chars.length_eq

/-- `ofText?` undoes `text`. -/
theorem ofText?_text (key : Key) : ofText? key.text = some key := by
  rw [ofText?, text, String.toList_ofList]
  exact ofChars?_eq_some_iff.mpr (.hyphenated key.grouped_chars)

theorem chars_ne_nil (key : Key) : key.chars ≠ [] :=
  show _ ++ '-' :: _ ≠ [] from List.append_ne_nil_of_right_ne_nil _ (List.cons_ne_nil _ _)

theorem text_injective : Function.Injective text := by
  intro a b h
  have hread := ofText?_text a
  rw [h, ofText?_text b] at hread
  exact (Option.some.inj hread).symm

theorem text_inj {a b : Key} : a.text = b.text ↔ a = b := text_injective.eq_iff

/-- A hyphen or a hex digit in lower case. -/
def Lower (c : Char) : Prop := c = '-' ∨ '0' ≤ c ∧ c ≤ '9' ∨ 'a' ≤ c ∧ c ≤ 'f'

theorem lower_digit (d : Fin 16) : Lower (Hex.digit d) := by
  unfold Lower
  revert d
  decide

theorem lower_of_mem_writeGroups {sizes : List Nat} {ds : List (Fin 16)} {c : Char}
    (h : c ∈ writeGroups sizes ds) : Lower c := by
  have hdigits {ds : List (Fin 16)} (h : c ∈ ds.map Hex.digit) : Lower c := by
    obtain ⟨d, -, rfl⟩ := List.mem_map.mp h
    exact lower_digit d
  fun_induction writeGroups sizes ds with
  | case1 => cases h
  | case2 => exact hdigits h
  | case3 _ _ _ _ ih =>
    obtain h | h | h := by simpa only [List.mem_append, List.mem_cons] using h
    · exact hdigits h
    · exact .inl h
    · exact ih h

theorem lower_of_mem_chars {key : Key} {c : Char} (h : c ∈ key.chars) : Lower c :=
  lower_of_mem_writeGroups h

end SessionCache.Key
