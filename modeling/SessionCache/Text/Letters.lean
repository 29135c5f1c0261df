/-!
# Bytes as letters

Texts that come as bytes are read letter by letter. A letter is a character, or `none` for a byte
that belongs to no UTF-8 sequence; a reader that does not care about such a byte can pass it by.

* `ofBytes_toUTF8`: the letters of a text's own bytes are its characters.
* `shown`: bytes as a text in which `U+FFFD` stands for what is no character; `shown_toUTF8`: a text's
  own bytes are shown as the text.
* `decidableEqBytes`: byte strings are compared byte by byte.
-/

namespace SessionCache

instance decidableEqBytes : DecidableEq ByteArray := ByteArray.instDecidableEq

end SessionCache

namespace SessionCache.Text

/-- A character, or a byte outside of any UTF-8 sequence. -/
abbrev Letter := Option Char

namespace Letters

/-- The letters from byte `i` on, at most `fuel` of them. -/
def scan (bytes : ByteArray) (i : Nat) : Nat → List Letter
  | 0 => []
  | fuel + 1 =>
    if i < bytes.size then
      match bytes.utf8DecodeChar? i with
      | some c => some c :: scan bytes (i + c.utf8Size) fuel
      | none => none :: scan bytes (i + 1) fuel
    else []

/-- The letters of a byte string. -/
def ofBytes (bytes : ByteArray) : List Letter :=
  match String.fromUTF8? bytes with
  | some text => text.toList.map some
  | none => scan bytes 0 bytes.size

/-- The letters of a text. -/
def ofText (text : String) : List Letter := text.toList.map some

@[simp] theorem fromUTF8?_toUTF8 (text : String) : String.fromUTF8? text.toUTF8 = some text := by
  unfold String.fromUTF8?
  split
  · rfl
  · next h => exact absurd text.isValidUTF8 (by simpa using h)

@[simp] theorem ofBytes_toUTF8 (text : String) : ofBytes text.toUTF8 = ofText text := by
  unfold ofBytes
  rw [fromUTF8?_toUTF8]
  rfl

/-! ## Showing bytes -/

/-- Whether `b` may be the second byte of a sequence that begins with `lead`. -/
def maySecond (lead b : UInt8) : Bool :=
  if lead = 0xE0 then 0xA0 ≤ b && b ≤ 0xBF
  else if lead = 0xED then 0x80 ≤ b && b ≤ 0x9F
  else if lead = 0xF0 then 0x90 ≤ b && b ≤ 0xBF
  else if lead = 0xF4 then 0x80 ≤ b && b ≤ 0x8F
  else 0xE1 ≤ lead && lead ≤ 0xF3 && 0x80 ≤ b && b ≤ 0xBF

/-- The length of the longest start of a UTF-8 sequence at the front, at least 1. -/
def broken : List UInt8 → Nat
  | lead :: second :: rest =>
    if !maySecond lead second then 1
    else if 0xF0 ≤ lead && rest.head?.any fun third => 0x80 ≤ third && third ≤ 0xBF then 3
    else 2
  | _ => 1

/-- The characters from byte `i` on, at most `fuel` of them, with `U+FFFD` for every `broken`
stretch. -/
def patch (bytes : ByteArray) (i : Nat) : Nat → List Char
  | 0 => []
  | fuel + 1 =>
    if i < bytes.size then
      match bytes.utf8DecodeChar? i with
      | some c => c :: patch bytes (i + c.utf8Size) fuel
      | none => '\uFFFD' :: patch bytes (i + broken (bytes.toList.drop i)) fuel
    else []

/-- Bytes as text, with `U+FFFD` for what is not UTF-8. -/
def shown (bytes : ByteArray) : String :=
  (String.fromUTF8? bytes).getD (String.ofList (patch bytes 0 bytes.size))

@[simp] theorem shown_toUTF8 (text : String) : shown text.toUTF8 = text := by
  rw [shown, fromUTF8?_toUTF8, Option.getD_some]

end Letters

end SessionCache.Text
