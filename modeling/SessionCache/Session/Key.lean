import SessionCache.Decimal.Double
import SessionCache.Text.Hex

/-!
# Session keys

A key is 128 bits, kept as the 32 hex digits that it is written with. Its text is lower case
in groups of 8, 4, 4, 4 and 12 digits with hyphens between them.

* `Key.ofText?` reads four spellings, in either case of the digits: the grouped form, 32 plain
  digits, the grouped form in braces, and the grouped form after `urn:uuid:`.
* `Key.readGroups_writeGroups`: digits written in groups read back.
* Keys are ordered by their digits.
* `Key.ofEntropy block n`: the `n`-th of the keys of version 4 that are made from one block of 128
  bits that nobody can foresee.
-/

namespace SessionCache

/-- A session key: 32 hex digits. -/
structure Key where
  digits : Vector (Fin 16) 32
  deriving DecidableEq

namespace Key

open Text

/-- The sizes of the digit groups of a written key. -/
def groups : List Nat := [8, 4, 4, 4, 12]

/-- Writes `ds` in groups of `sizes`, with a hyphen between two groups. -/
def writeGroups : List Nat → List (Fin 16) → List Char
  | [], _ => []
  | [n], ds => (ds.take n).map Hex.digit
  | n :: ns, ds => (ds.take n).map Hex.digit ++ '-' :: writeGroups ns (ds.drop n)

/-- Reads `n` hex digits, and answers the rest. -/
def readDigits : Nat → List Char → Option (List (Fin 16) × List Char)
  | 0, cs => some ([], cs)
  | _ + 1, [] => none
  | n + 1, c :: cs => do
    let d ← Hex.value? c
    let (ds, rest) ← readDigits n cs
    return (d :: ds, rest)

/-- Reads all of a text as groups of `sizes`. -/
def readGroups : List Nat → List Char → Option (List (Fin 16))
  | [], cs => if cs.isEmpty then some [] else none
  | [n], cs => do
    let (ds, rest) ← readDigits n cs
    if rest.isEmpty then some ds else none
  | n :: ns, cs => do
    let (ds, rest) ← readDigits n cs
    match rest with
    | '-' :: rest => (ds ++ ·) <$> readGroups ns rest
    | _ => none

/-- The key with these digits, if they are 32. -/
def ofDigits? (ds : List (Fin 16)) : Option Key :=
  if h : ds.length = 32 then some ⟨⟨ds.toArray, by simp [h]⟩⟩ else none

/-- The key whose digits spell `n`. -/
def ofNat (n : Nat) : Key :=
  ⟨⟨(Hex.ofNat 32 n).toArray, by simp⟩⟩

/-- The grouped text, as characters. -/
def chars (key : Key) : List Char := writeGroups groups key.digits.toList

/-- The text of a key: 36 characters, lower case. -/
def text (key : Key) : String := String.ofList key.chars

instance : ToString Key := ⟨text⟩

/-- Reads 32 digits, grouped digits, and those in braces or after `urn:uuid:`. -/
def ofChars? (cs : List Char) : Option Key :=
  match cs with
  | '{' :: body =>
    if body.getLast? = some '}' then (readGroups groups body.dropLast).bind ofDigits? else none
  | 'u' :: 'r' :: 'n' :: ':' :: 'u' :: 'u' :: 'i' :: 'd' :: ':' :: body =>
    (readGroups groups body).bind ofDigits?
  | _ => (readGroups [32] cs <|> readGroups groups cs).bind ofDigits?

/-- `ofChars?` of the characters of `text`. -/
def ofText? (text : String) : Option Key := ofChars? text.toList

/-- Keys are ordered by their digits, the first one deciding. -/
protected def lt (a b : Key) : Prop := a.digits.toList < b.digits.toList

instance : LT Key := ⟨Key.lt⟩

instance (a b : Key) : Decidable (a < b) :=
  inferInstanceAs (Decidable (a.digits.toList < b.digits.toList))

/-- The version nibble, the high half of byte 6. -/
def version (key : Key) : Fin 16 := key.digits[12]

/-! ## Reading back -/

theorem readDigits_map (ds : List (Fin 16)) (rest : List Char) :
    readDigits ds.length (ds.map Hex.digit ++ rest) = some (ds, rest) := by
  induction ds with
  | nil => rfl
  | cons d ds ih => simp [readDigits, ih]

/-- The number of digits in groups of the given sizes. -/
def totalSize : List Nat → Nat
  | [] => 0
  | n :: ns => n + totalSize ns

theorem readGroups_writeGroups (ns : List Nat) (ds : List (Fin 16))
    (h : ds.length = totalSize ns) : readGroups ns (writeGroups ns ds) = some ds := by
  induction ns generalizing ds with
  | nil =>
    obtain rfl : ds = [] := by simpa [totalSize] using h
    rfl
  | cons n ns ih =>
    have hn : (ds.take n).length = n := by simp [totalSize] at h ⊢; omega
    cases ns with
    | nil =>
      have hall : ds.take n = ds := List.take_of_length_le (by simp [totalSize] at h; omega)
      have key := readDigits_map (ds.take n) []
      rw [hn, List.append_nil] at key
      rw [hall] at key
      simp [readGroups, writeGroups, key, hall]
    | cons m ms =>
      have key := readDigits_map (ds.take n) ('-' :: writeGroups (m :: ms) (ds.drop n))
      rw [hn] at key
      have hd : (ds.drop n).length = totalSize (m :: ms) := by simp [totalSize] at h ⊢; omega
      simp [readGroups, writeGroups, key, ih _ hd, -List.map_take]

/-! ## New keys -/

/-- Mixes the bits of a word: every bit of `mixBits z` depends on every bit of `z`. -/
def mixBits (z : UInt64) : UInt64 :=
  let z := (z ^^^ (z >>> 30)) * 0xbf58476d1ce4e5b9
  let z := (z ^^^ (z >>> 27)) * 0x94d049bb133111eb
  z ^^^ (z >>> 31)

/-- The key of version 4 with these bits in its other places: 48, 12 and 62. -/
def versionFour (bits : Nat) : Key :=
  let low := bits % twoTo 62
  let middle := bits / twoTo 62 % twoTo 12
  let high := bits / twoTo 74 % twoTo 48
  .ofNat (high * twoTo 80 + 4 * twoTo 76 + middle * twoTo 64 + 2 * twoTo 62 + low)

/-- The keys that come from a block of 128 bits, by their number. -/
def ofEntropy (block n : Nat) : Key :=
  let word (half : Nat) : Nat := (mixBits (mixBits (UInt64.ofNat half) + UInt64.ofNat n)).toNat
  versionFour (word (block / twoTo 64) * twoTo 64 + word block)

end Key

end SessionCache
