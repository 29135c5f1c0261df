/-!
# Double-precision numbers as exact integers

A finite double is `mantissa · 2 ^ exponent` with a sign. Everything here is exact arithmetic on
integers.

* `twoTo n` and `tenTo n`: `2 ^ n`, which bounds machine words, and `10 ^ n`, which moves the point
  of a decimal; `fitsUnsigned bits`, `fitsSigned bits`: the integers of a word.
* `Double.ofDecimal?`: the double nearest to a decimal, ties to the even mantissa; none if it is
  past the largest one.
* `Double.times?`, `Double.dividedBy?`: products and quotients of magnitudes, rounded once.
-/

namespace SessionCache

/-! ## Powers and words -/

/-- `2 ^ n`. -/
def twoTo (n : Nat) : Nat := Nat.pow 2 n

/-- `10 ^ n`. -/
def tenTo (n : Nat) : Nat := Nat.pow 10 n

/-- `0 ≤ n < 2 ^ bits`. -/
abbrev fitsUnsigned (bits : Nat) (n : Int) : Prop := 0 ≤ n ∧ n < (twoTo bits : Int)

/-- `-2 ^ bits ≤ n < 2 ^ bits`. -/
abbrev fitsSigned (bits : Nat) (n : Int) : Prop :=
  -(twoTo bits : Int) ≤ n ∧ n < (twoTo bits : Int)

/-! ## Doubles -/

/-- A double, by its 64 bits: sign, 11 bits of exponent, 52 bits of mantissa. -/
structure Double where
  bits : UInt64
  deriving DecidableEq, Repr

namespace Double

/-- Whether the sign bit is set. -/
def isNegative (x : Double) : Bool := x.bits.toNat / twoTo 63 == 1

/-- The 11 exponent bits. -/
def exponentBits (x : Double) : Nat := x.bits.toNat / twoTo 52 % twoTo 11

/-- The 52 mantissa bits. -/
def mantissaBits (x : Double) : Nat := x.bits.toNat % twoTo 52

/-- The whole mantissa, with the leading bit that normal numbers leave out. -/
def mantissa (x : Double) : Nat :=
  if x.exponentBits = 0 then x.mantissaBits else twoTo 52 + x.mantissaBits

/-- The power of two that the mantissa is multiplied by. -/
def exponent (x : Double) : Int :=
  if x.exponentBits = 0 then -1074 else (x.exponentBits : Int) - 1075

/-- A double from its sign and the bits below it. -/
def ofParts (negative : Bool) (magnitude : Nat) : Double :=
  ⟨UInt64.ofNat (magnitude + if negative then twoTo 63 else 0)⟩

/-- `num / den` rounded to the nearest integer, ties to even. -/
def roundDiv (num den : Nat) : Nat :=
  let q := num / den
  let r := num % den
  if 2 * r < den ∨ (2 * r = den ∧ q % 2 = 0) then q else q + 1

/-- `num · 2 ^ (-k) / den`, rounded. -/
def scaled (num den : Nat) (k : Int) : Nat :=
  if 0 ≤ k then roundDiv num (den * twoTo k.toNat) else roundDiv (num * twoTo (-k).toNat) den

/-- The power of two at which a positive quotient has 53 bits, or the smallest one there is. -/
def binade (num den : Nat) : Int :=
  let guess : Int := (num.log2 : Int) - (den.log2 : Int) - 52
  let k := if scaled num den guess < twoTo 52 then guess - 1 else guess
  if k < -1074 then -1074 else k

/-- The double nearest to `num / den`, both positive. -/
def ofQuotient? (negative : Bool) (num den : Nat) : Option Double :=
  let k := binade num den
  let q := scaled num den k
  let (q, k) := if q = twoTo 53 then (twoTo 52, k + 1) else (q, k)
  if 971 < k then none
  else if q < twoTo 52 then some (ofParts negative q)
  else some (ofParts negative ((k + 1075).toNat * twoTo 52 + (q - twoTo 52)))

/-- The double nearest to `mantissa · 10 ^ exponent`; none if it is too large for a double. -/
def ofDecimal? (negative : Bool) (mantissa : Nat) (exponent : Int) : Option Double :=
  if mantissa = 0 then some (ofParts negative 0)
  else
    let size := exponent + ((toString mantissa).length : Int)
    if 310 < size then none
    else if size < -330 then some (ofParts negative 0)
    else if 0 ≤ exponent then ofQuotient? negative (mantissa * tenTo exponent.toNat) 1
    else ofQuotient? negative mantissa (tenTo (-exponent).toNat)

/-- Zero. -/
def zero : Double := ⟨0⟩

/-- The double nearest to a natural number. -/
def ofNat? (n : Nat) : Option Double :=
  if n = 0 then some zero else ofQuotient? false n 1

/-- The double nearest to a power of ten. -/
def powerOfTen? (n : Nat) : Option Double := ofQuotient? false (tenTo n) 1

/-- The double nearest to `num / den · 2 ^ e`. -/
def ofRatio? (num den : Nat) (e : Int) : Option Double :=
  if num = 0 then some zero
  else if 0 ≤ e then ofQuotient? false (num * twoTo e.toNat) den
  else ofQuotient? false num (den * twoTo (-e).toNat)

/-- The product of two magnitudes, rounded; none if it is too large for a double. -/
def times? (x y : Double) : Option Double :=
  ofRatio? (x.mantissa * y.mantissa) 1 (x.exponent + y.exponent)

/-- The quotient of two magnitudes, rounded; none if it is too large for a double. -/
def dividedBy? (x y : Double) : Option Double :=
  ofRatio? x.mantissa y.mantissa (x.exponent - y.exponent)

/-- A magnitude with a sign. -/
def withSign (x : Double) (negative : Bool) : Double :=
  ofParts negative (x.bits.toNat % twoTo 63)

/-- Whether the double is a number, and a finite one. -/
def isFinite (x : Double) : Bool := x.exponentBits != 2047

example : ofDecimal? false 15 (-1) = some ⟨0x3FF8000000000000⟩ := by decide +kernel
example : ofDecimal? true 0 0 = some ⟨0x8000000000000000⟩ := by decide +kernel
example : ofDecimal? false 1 309 = none := by decide +kernel
example : (ofNat? 3).bind (fun x => x.dividedBy? ⟨0x4000000000000000⟩) =
    some ⟨0x3FF8000000000000⟩ := by decide +kernel

end Double

end SessionCache
