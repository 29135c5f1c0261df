import SessionCache.Decimal.Double

/-!
# The shortest decimal that reads back

A positive double stands for all reals that round to it. Among the decimals in that interval the
one with the fewest digits is chosen, and of those the nearest to the double.

* `Shortest.ofDouble`: digits and power of ten, for a positive finite double.
-/

namespace SessionCache.Shortest

/-- A decimal: `digits · 10 ^ exponent`. -/
structure Decimal where
  digits : Nat
  exponent : Int
  deriving DecidableEq, Repr

/-- `m · 2 ^ e` and `d · 10 ^ p` as integers over one common denominator. -/
def common (m : Nat) (e : Int) (d : Nat) (p : Int) : Nat × Nat :=
  let twos := twoTo e.natAbs
  let tens := tenTo p.natAbs
  let left := m * (if 0 ≤ e then twos else 1) * (if 0 ≤ p then 1 else tens)
  let right := d * (if 0 ≤ p then tens else 1) * (if 0 ≤ e then 1 else twos)
  (left, right)

/-- Whether `d · 10 ^ p` rounds to the double with mantissa `m` and exponent `e`. The interval
reaches half way to both neighbours, whose gap below is half as wide under a power of two; its
ends belong to it if the mantissa is even. -/
def covers (m : Nat) (e : Int) (d : Nat) (p : Int) : Bool :=
  let narrow := m == twoTo 52 && e != -1074
  let (low, x) := common (4 * m - if narrow then 1 else 2) (e - 2) d p
  let (high, y) := common (4 * m + 2) (e - 2) d p
  if m % 2 = 0 then low ≤ x && y ≤ high else low < x && y < high

/-- The power of ten of the first decimal digit of `m · 2 ^ e`, found from a guess upwards. -/
def leading (m : Nat) (e : Int) (guess : Int) : Nat → Int
  | 0 => guess
  | n + 1 =>
    let (x, ten) := common m e 1 (guess + 1)
    if x < ten then guess else leading m e (guess + 1) n

/-- The nearer of the two neighbours of `m · 2 ^ e` on the grid of step `10 ^ p` that read back. -/
def onGrid? (m : Nat) (e : Int) (p : Int) : Option Decimal :=
  let (x, step) := common m e 1 p
  let below := x / step
  let rest := x % step
  let first := if 2 * rest < step ∨ (2 * rest = step ∧ below % 2 = 0) then below else below + 1
  let second := if first = below then below + 1 else below
  if 0 < first ∧ covers m e first p then some ⟨first, p⟩
  else if 0 < second ∧ covers m e second p then some ⟨second, p⟩
  else none

/-- The first grid, from coarse to fine, that has a decimal reading back. -/
def search (m : Nat) (e : Int) (p : Int) : Nat → Decimal
  | 0 => ⟨m, e⟩
  | n + 1 =>
    match onGrid? m e p with
    | some d => d
    | none => search m e (p - 1) n

/-- A decimal without zeros at the end of its digits. -/
def trimmed (d : Decimal) : Nat → Decimal
  | 0 => d
  | n + 1 => if d.digits % 10 = 0 then trimmed ⟨d.digits / 10, d.exponent + 1⟩ n else d

/-- The shortest decimal of a positive finite double. -/
def ofDouble (x : Double) : Decimal :=
  let m := x.mantissa
  let e := x.exponent
  let guess := (e + (m.log2 : Int)) * 3 / 10 - 2
  trimmed (search m e (leading m e guess 700) 18) 20

example : ofDouble ⟨0x3FB999999999999A⟩ = ⟨1, -1⟩ := by decide +kernel
example : ofDouble ⟨1⟩ = ⟨5, -324⟩ := by decide +kernel
example : ofDouble ⟨0x7FEFFFFFFFFFFFFF⟩ = ⟨17976931348623157, 292⟩ := by decide +kernel

end SessionCache.Shortest
