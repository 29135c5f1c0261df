import SessionCache.Decimal.Double

/-!
# Numbers as written

A `Numeral` keeps the digits of a number. Its value is worked out from at most so many digits as
fit in 64 bits, in two roundings: the digits to a double, then that times or through a power of
ten. The result is often, but not always, the double nearest to the number.

* `Numeral.toNumber?`: the number that a numeral stands for.
* `gather_fst_lt`: the gathered digits fit in 64 bits.
-/

namespace SessionCache.Json

/-- A number: an integer of 64 bits, signed or unsigned, or a double. -/
inductive Number where
  | int (n : Int)
  | double (x : Double)
  deriving DecidableEq, Repr

/-- A number as written: its sign, the digits before and after the point, and the exponent, if
there is one. -/
structure Numeral where
  negative : Bool
  whole : List Nat
  places : List Nat
  exponent : Option Int
  deriving DecidableEq, Repr

/-- Appends digits to `n` while the result is below `2 ^ 64`; answers it and the digits left. -/
def gather (n : Nat) : List Nat → Nat × List Nat
  | [] => (n, [])
  | d :: rest => if n * 10 + d < twoTo 64 then gather (n * 10 + d) rest else (n, d :: rest)

theorem gather_fst_lt {n : Nat} (h : n < twoTo 64) (ds : List Nat) :
    (gather n ds).1 < twoTo 64 := by
  induction ds generalizing n with
  | nil => exact h
  | cons d rest ih =>
    unfold gather
    split
    next fits => exact ih fits
    next => exact h

/-- The greatest `n` with `10 ^ n` a double. -/
def mostTens : Nat := 308

/-- `x` divided by `10 ^ mostTens`, this many times or until it is zero. -/
def lowered (x : Double) : Nat → Option Double
  | 0 => some x
  | k + 1 =>
    if x.mantissa = 0 then some x
    else
      match Double.powerOfTen? mostTens >>= x.dividedBy? with
      | some x => lowered x k
      | none => none

/-- `x` divided by `10 ^ n`, at most the largest power of ten at a time. -/
def dividedByTens? (x : Double) (n : Nat) : Option Double := do
  let times := (n - 1) / mostTens
  (← lowered x times).dividedBy? (← Double.powerOfTen? (n - mostTens * times))

namespace Numeral

/-- The leading digits that fit in 64 bits as one number, and the power of ten that belongs to
it. A digit before the point that does not fit counts as a zero; the first one after the point
that does not fit ends the number. -/
def significant (n : Numeral) : Nat × Int :=
  let (front, dropped) := gather 0 n.whole
  let (all, left) := gather front n.places
  (all, n.exponent.getD 0 + (dropped.length : Int) - ((n.places.length - left.length : Nat) : Int))

/-- The magnitude as a double; none if it is too large for one. -/
def magnitude? (n : Numeral) : Option Double :=
  let (digits, exponent) := n.significant
  if digits = 0 then some Double.zero
  else if (mostTens : Int) < exponent then none
  else
    (Double.ofNat? digits).bind fun x =>
      if 0 ≤ exponent then Double.powerOfTen? exponent.toNat >>= x.times?
      else dividedByTens? x (-exponent).toNat

/-- The integer, if it is written without point and exponent and fits in 64 bits. `-0` is none. -/
def int? (n : Numeral) : Option Int :=
  let (digits, left) := gather 0 n.whole
  let value : Int := if n.negative then -(digits : Int) else digits
  if n.places = [] ∧ n.exponent = none ∧ left = [] ∧
      (fitsSigned 63 value ∨ fitsUnsigned 64 value) ∧ ¬(n.negative ∧ digits = 0) then
    some value
  else none

/-- `int?`, or else the double; `none` if it is too large for one. -/
def toNumber? (n : Numeral) : Option Number :=
  match n.int? with
  | some value => some (.int value)
  | none => n.magnitude?.map fun x => .double (x.withSign n.negative)

example : toNumber? ⟨true, [7], [], none⟩ = some (.int (-7)) := by decide +kernel
example : toNumber? ⟨true, [0], [], none⟩ = some (.double ⟨0x8000000000000000⟩) := by
  decide +kernel
example : toNumber? ⟨false, [1], [4], some 84⟩ = some (.double ⟨0x51670FA17F44AACC⟩) := by
  decide +kernel
example : toNumber? ⟨false, [1], [], some 309⟩ = none := by decide +kernel

end Numeral

end SessionCache.Json
