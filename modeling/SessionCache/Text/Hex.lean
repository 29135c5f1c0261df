/-!
# Hexadecimal digits

A digit is a `Fin 16`. It is written in lower case and read in either case.

* `value?_digit`: a written digit reads back.
* `ofBytes`/`toBytes?`: a byte string as two digits per byte, high half first.
-/

namespace SessionCache.Text.Hex

/-- The lower-case character of a digit. -/
def digit (d : Fin 16) : Char :=
  if d.val < 10 then Char.ofNat (48 + d.val) else Char.ofNat (87 + d.val)

/-- The upper-case character of a digit. -/
def upperDigit (d : Fin 16) : Char :=
  if d.val < 10 then Char.ofNat (48 + d.val) else Char.ofNat (55 + d.val)

/-- The digit that a character stands for; letters count in either case. -/
def value? (c : Char) : Option (Fin 16) :=
  if '0' ≤ c ∧ c ≤ '9' then some (Fin.ofNat 16 (c.toNat - 48))
  else if 'a' ≤ c ∧ c ≤ 'f' then some (Fin.ofNat 16 (c.toNat - 87))
  else if 'A' ≤ c ∧ c ≤ 'F' then some (Fin.ofNat 16 (c.toNat - 55))
  else none

@[simp] theorem value?_digit (d : Fin 16) : value? (digit d) = some d := by
  revert d; decide

/-- The digits of a number below `16 ^ width`, most significant first. -/
def ofNat (width n : Nat) : List (Fin 16) :=
  match width with
  | 0 => []
  | w + 1 => Fin.ofNat 16 (n / Nat.pow 16 w) :: ofNat w n

@[simp] theorem length_ofNat (width n : Nat) : (ofNat width n).length = width := by
  induction width with
  | zero => rfl
  | succ w ih => simp [ofNat, ih]

/-- The number that digits spell, most significant first. -/
def toNat (digits : List (Fin 16)) : Nat :=
  digits.foldl (fun n d => n * 16 + d.val) 0

/-- A byte string in hex. -/
def ofBytes (bytes : ByteArray) : String :=
  String.ofList (bytes.toList.flatMap fun b => (ofNat 2 b.toNat).map digit)

/-- The bytes that a text of digit pairs stands for. -/
def bytesOf? : List Char → Option (List UInt8)
  | [] => some []
  | [_] => none
  | hi :: lo :: rest => do
    let h ← value? hi
    let l ← value? lo
    let tail ← bytesOf? rest
    return UInt8.ofNat (h.val * 16 + l.val) :: tail

/-- Reads a text of digit pairs. -/
def toBytes? (text : String) : Option ByteArray :=
  (bytesOf? text.toList).map fun bytes => ⟨bytes.toArray⟩

end SessionCache.Text.Hex
