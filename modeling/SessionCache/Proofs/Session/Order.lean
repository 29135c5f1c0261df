import Mathlib.Data.List.Basic
import Mathlib.Data.List.Induction
import SessionCache.Session.Key

/-!
# The order of keys

Keys are ordered by their digits. That is the order of the numbers that the digits spell, and since
all keys have their hyphens at the same places, it is the order of their texts byte by byte.

* `Text.Hex.toNat_lt_toNat_iff`: digits of one length are ordered as numbers.
* `Key.writeGroups_lt_iff`: digits of one length are ordered as their texts.
* `Key.lt_iff_toNat_lt`, `Key.lt_iff_bytes_lt`: the order of keys.
-/

namespace SessionCache

variable {ds es : List (Fin 16)}

/-- The lexicographic order of lists whose first parts are equally long. -/
theorem append_lt_append_iff {α : Type} [LT α] {as bs as' bs' : List α} (h : as.length = bs.length) :
    as ++ as' < bs ++ bs' ↔ as < bs ∨ as = bs ∧ as' < bs' := by
  induction as generalizing bs with
  | nil =>
    obtain rfl := List.length_eq_zero_iff.mp h.symm
    simp
  | cons a as ih =>
    cases bs with
    | nil => cases h
    | cons b bs =>
      simp only [List.cons_append, List.cons_lt_cons_iff, ih (Nat.succ.inj h), List.cons.injEq,
        and_or_left, or_assoc, and_assoc]

/-! ## Numbers -/

namespace Text.Hex

theorem toNat_concat (ds : List (Fin 16)) (d : Fin 16) : toNat (ds ++ [d]) = toNat ds * 16 + d :=
  List.foldl_concat _ _ _ _

/-- `16 ^ length` of a list with one more digit. -/
theorem pow_length_concat (ds : List (Fin 16)) (d : Fin 16) :
    Nat.pow 16 (ds ++ [d]).length = Nat.pow 16 ds.length * 16 := by
  rw [List.length_append]
  rfl

theorem toNat_lt (ds : List (Fin 16)) : toNat ds < Nat.pow 16 ds.length := by
  induction ds using List.reverseRecOn with
  | nil => decide
  | append_singleton ds d ih =>
    rw [toNat_concat, pow_length_concat]
    omega

theorem toNat_cons (d : Fin 16) (ds : List (Fin 16)) :
    toNat (d :: ds) = d * Nat.pow 16 ds.length + toNat ds := by
  induction ds using List.reverseRecOn with
  | nil => simp [toNat]
  | append_singleton ds e ih =>
    rw [← List.cons_append, toNat_concat, toNat_concat, ih, pow_length_concat, Nat.add_mul,
      Nat.mul_assoc, Nat.add_assoc]

/-- The first digit decides. -/
theorem toNat_cons_lt_toNat_cons {d e : Fin 16} (h : d < e) (hlength : ds.length = es.length) :
    toNat (d :: ds) < toNat (e :: es) := by
  rw [toNat_cons, toNat_cons, hlength]
  calc d * Nat.pow 16 es.length + toNat ds
      < (d + 1) * Nat.pow 16 es.length := by
        rw [Nat.succ_mul]
        exact Nat.add_lt_add_left (hlength ▸ toNat_lt ds) _
    _ ≤ e * Nat.pow 16 es.length + toNat es := Nat.le_add_right_of_le (Nat.mul_le_mul_right _ h)

/-- For digits of equal number, `toNat` is monotone for the lexicographic order. -/
theorem toNat_lt_toNat_iff (h : ds.length = es.length) : toNat ds < toNat es ↔ ds < es := by
  induction ds generalizing es with
  | nil =>
    obtain rfl := List.length_eq_zero_iff.mp h.symm
    simp
  | cons d ds ih =>
    cases es with
    | nil => cases h
    | cons e es =>
      have hlength : ds.length = es.length := Nat.succ.inj h
      rw [List.cons_lt_cons_iff, ← ih hlength]
      rcases Nat.lt_trichotomy d e with hlt | heq | hgt
      · exact iff_of_true (toNat_cons_lt_toNat_cons hlt hlength) (.inl hlt)
      · obtain rfl := Fin.ext heq
        simp [toNat_cons, hlength]
      · refine iff_of_false (Nat.lt_asymm (toNat_cons_lt_toNat_cons hgt hlength.symm)) ?_
        rintro (hlt | ⟨rfl, -⟩)
        · exact Nat.lt_asymm hgt hlt
        · exact Nat.lt_irrefl _ hgt

end Text.Hex

namespace Key

open Text

/-! ## Texts -/

/-- The UTF-8 byte of a hex digit in lower case. -/
def digitByte (d : Fin 16) : UInt8 := UInt8.ofNat (Hex.digit d).toNat

theorem digitByte_lt_iff (d e : Fin 16) : digitByte d < digitByte e ↔ d < e := by
  revert d e
  decide

theorem digitByte_injective : Function.Injective digitByte := by
  unfold Function.Injective
  decide

theorem map_digitByte_lt_iff (ds es : List (Fin 16)) :
    ds.map digitByte < es.map digitByte ↔ ds < es := by
  induction ds generalizing es with
  | nil => cases es <;> simp
  | cons d ds ih =>
    cases es with
    | nil => simp
    | cons e es =>
      simp only [List.map_cons, List.cons_lt_cons_iff, digitByte_lt_iff, digitByte_injective.eq_iff, ih]

/-- The UTF-8 bytes of characters. -/
abbrev bytesOf (cs : List Char) : List UInt8 := cs.flatMap String.utf8EncodeChar

theorem bytesOf_digits (ds : List (Fin 16)) : bytesOf (ds.map Hex.digit) = ds.map digitByte := by
  have hdigit : ∀ d, String.utf8EncodeChar (Hex.digit d) = [digitByte d] := by decide
  rw [bytesOf, List.flatMap_map, funext hdigit, List.map_eq_flatMap]

theorem bytesOf_writeGroups (n m : Nat) (sizes : List Nat) (ds : List (Fin 16)) :
    bytesOf (writeGroups (n :: m :: sizes) ds) =
      (ds.take n).map digitByte ++ (bytesOf ['-'] ++ bytesOf (writeGroups (m :: sizes) (ds.drop n))) := by
  rw [← bytesOf_digits]
  exact List.flatMap_append

/-- The order of grouped digits is that of the digits, as the hyphens stand at the same places. -/
theorem writeGroups_lt_iff {sizes : List Nat} (hd : ds.length = totalSize sizes)
    (he : es.length = totalSize sizes) :
    bytesOf (writeGroups sizes ds) < bytesOf (writeGroups sizes es) ↔ ds < es := by
  induction sizes generalizing ds es with
  | nil =>
    obtain rfl := List.length_eq_zero_iff.mp hd
    obtain rfl := List.length_eq_zero_iff.mp he
    simp [writeGroups]
  | cons n sizes ih =>
    rw [totalSize] at hd he
    cases sizes with
    | nil =>
      have hds : ds.take n = ds := List.take_of_length_le (Nat.le_of_eq hd)
      have hes : es.take n = es := List.take_of_length_le (Nat.le_of_eq he)
      rw [writeGroups, writeGroups, hds, hes, bytesOf_digits, bytesOf_digits, map_digitByte_lt_iff]
    | cons m sizes =>
      have hrest : bytesOf (writeGroups (m :: sizes) (ds.drop n)) <
          bytesOf (writeGroups (m :: sizes) (es.drop n)) ↔ ds.drop n < es.drop n :=
        ih (by simp [hd]) (by simp [he])
      have hfront : (ds.take n).length = (es.take n).length := by simp [hd, he]
      rw [bytesOf_writeGroups, bytesOf_writeGroups,
        append_lt_append_iff (by rw [List.length_map, List.length_map, hfront]),
        append_lt_append_iff rfl, hrest, map_digitByte_lt_iff, digitByte_injective.list_map.eq_iff]
      conv_rhs =>
        rw [← List.take_append_drop n ds, ← List.take_append_drop n es, append_lt_append_iff hfront]
      simp [List.lt_irrefl]

/-! ## Keys -/

theorem lt_iff_toNat_lt {a b : Key} :
    a < b ↔ Hex.toNat a.digits.toList < Hex.toNat b.digits.toList :=
  (Hex.toNat_lt_toNat_iff (a.digits.length_toList.trans b.digits.length_toList.symm)).symm

theorem lt_iff_bytes_lt {a b : Key} :
    a < b ↔ a.text.toUTF8.data.toList < b.text.toUTF8.data.toList := by
  have hbytes (key : Key) : key.text.toUTF8.data.toList = bytesOf key.chars :=
    List.toList_data_toByteArray
  rw [hbytes, hbytes]
  exact (writeGroups_lt_iff a.digits.length_toList b.digits.length_toList).symm

end Key

end SessionCache
