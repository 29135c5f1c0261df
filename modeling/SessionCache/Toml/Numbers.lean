import SessionCache.Decimal.Double
import SessionCache.Text.Hex
import SessionCache.Toml.Strings

/-!
# TOML numbers and times

Integers have 64 bits with a sign, and may be written in four bases. Floats and times are read and
checked, but not kept: no setting has one.
-/

namespace SessionCache.Toml

open Text

/-- What a number or a time turns out to be. -/
inductive Quantity where
  | integer (n : Int)
  | float
  | time
  deriving DecidableEq, Repr

/-! ## Digits -/

/-- The value of a digit in a base. -/
def digitIn? (base : Nat) (c : Char) : Option Nat :=
  (Hex.value? c).bind fun d => if d.val < base then some d.val else none

/-- More digits, each perhaps after an underscore: their number after `acc`, and how many there
are after `count`. -/
def moreDigits (base acc count : Nat) : List Char → Nat × Nat × List Char
  | '_' :: c :: rest =>
    match digitIn? base c with
    | some d => moreDigits base (acc * base + d) (count + 1) rest
    | none => (acc, count, '_' :: c :: rest)
  | c :: rest =>
    match digitIn? base c with
    | some d => moreDigits base (acc * base + d) (count + 1) rest
    | none => (acc, count, c :: rest)
  | [] => (acc, count, [])

/-- Digits, with underscores between them: the number and how many there are. -/
def digits? (base acc : Nat) : Reader (Nat × Nat)
  | c :: rest =>
    match digitIn? base c with
    | some d =>
      let (n, count, rest) := moreDigits base (acc * base + d) 1 rest
      some ((n, count), rest)
    | none => none
  | [] => none

/-- Decimal digits that do not start with a zero, or a zero alone. -/
def wholeDigits? : Reader Nat
  | '0' :: rest => some (0, rest)
  | cs => (digits? 10 0 cs).map fun ((n, _), rest) => (n, rest)

/-- A sign: whether it is a minus, and whether there is one. -/
def sign : List Char → Bool × Bool × List Char
  | '-' :: rest => (true, true, rest)
  | '+' :: rest => (false, true, rest)
  | cs => (false, false, cs)

/-! ## Integers and floats -/

/-- An integer, if it fits in 64 bits. -/
def integer? (negative : Bool) (n : Nat) : Option Quantity :=
  let value : Int := if negative then -(n : Int) else n
  if fitsSigned 63 value then some (.integer value) else none

/-- The part of a float after its point: the digits before and after as one number, and how many
come after. -/
def fractionPart? (n : Nat) : List Char → Option (Nat × Nat × List Char)
  | '.' :: rest => (digits? 10 n rest).map fun ((m, count), rest) => (m, count, rest)
  | _ => none

/-- An exponent. -/
def exponentPart? : Reader Int
  | 'e' :: rest | 'E' :: rest =>
    let (negative, _, rest) := sign rest
    (digits? 10 0 rest).map fun ((n, _), rest) => (if negative then -(n : Int) else n, rest)
  | _ => none

/-- A float, which may not be larger than the largest double. -/
def float? (negative : Bool) (mantissa : Nat) (exponent : Int) : Option Quantity :=
  if negative ∨ (Double.ofDecimal? false mantissa exponent).isSome then some .float else none

/-- A decimal number. -/
def decimal? (negative : Bool) : Reader Quantity := fun cs => do
  let (n, rest) ← wholeDigits? cs
  match fractionPart? n rest with
  | some (m, places, rest) =>
    match exponentPart? rest with
    | some (e, rest) => return (← float? negative m (e - places), rest)
    | none => return (← float? negative m (-(places : Int)), rest)
  | none =>
    match exponentPart? rest with
    | some (e, rest) => return (← float? negative n e, rest)
    | none => return (← integer? negative n, rest)

/-- A number. -/
def number? : Reader Quantity
  | '0' :: 'x' :: rest => based 16 rest
  | '0' :: 'o' :: rest => based 8 rest
  | '0' :: 'b' :: rest => based 2 rest
  | cs =>
    match sign cs with
    | (_, _, 'i' :: 'n' :: 'f' :: rest) => some (.float, rest)
    | (_, _, 'n' :: 'a' :: 'n' :: rest) => some (.float, rest)
    | (negative, _, rest) => decimal? negative rest
where
  /-- An integer in a base, without a sign. -/
  based (base : Nat) : Reader Quantity := fun cs => do
    let ((n, _), rest) ← digits? base 0 cs
    return (← integer? false n, rest)

/-! ## Times -/

/-- A number of exactly so many decimal digits. -/
def fixed? (count : Nat) (acc : Nat) : Reader Nat
  | cs =>
    match count, cs with
    | 0, cs => some (acc, cs)
    | _ + 1, [] => none
    | n + 1, c :: rest =>
      match digitIn? 10 c with
      | some d => fixed? n (acc * 10 + d) rest
      | none => none

/-- Drops a character. -/
def literal? (c : Char) : List Char → Option (List Char)
  | x :: rest => if x = c then some rest else none
  | [] => none

/-- How many days a month has. -/
def daysIn (year month : Nat) : Nat :=
  if month = 2 then
    if year % 4 = 0 ∧ (year % 100 ≠ 0 ∨ year % 400 = 0) then 29 else 28
  else if month = 4 ∨ month = 6 ∨ month = 9 ∨ month = 11 then 30
  else 31

/-- The rest of a date after its year. -/
def restOfDate? (year : Nat) (cs : List Char) : Option (List Char) := do
  let cs ← literal? '-' cs
  let (month, cs) ← fixed? 2 0 cs
  let cs ← literal? '-' cs
  let (day, cs) ← fixed? 2 0 cs
  if 1 ≤ month ∧ month ≤ 12 ∧ 1 ≤ day ∧ day ≤ daysIn year month then some cs else none

/-- The rest of a time of day after its hour. -/
def restOfClock? (cs : List Char) : Option (List Char) := do
  let cs ← literal? ':' cs
  let (minute, cs) ← fixed? 2 0 cs
  let cs ← literal? ':' cs
  let (second, cs) ← fixed? 2 0 cs
  if minute < 60 ∧ second ≤ 60 then
    match cs with
    | '.' :: d :: rest =>
      if d.isDigit then some (rest.dropWhile Char.isDigit) else some cs
    | _ => some cs
  else none

/-- The hour of a time of day, if a time of day starts here. -/
def hour? (cs : List Char) : Option (List Char) :=
  match fixed? 2 0 cs with
  | some (hour, ':' :: rest) => if hour < 24 then some (':' :: rest) else none
  | _ => none

/-- Drops an offset from UTC, if there is one. -/
def skipOffset? (cs : List Char) : Option (List Char) :=
  match cs with
  | 'Z' :: rest | 'z' :: rest => some rest
  | '+' :: rest | '-' :: rest => do
    let cs ← hour? rest
    let cs ← literal? ':' cs
    let (minute, cs) ← fixed? 2 0 cs
    if minute < 60 then some cs else none
  | _ => some cs

/-- A date, with a time of day after it perhaps. -/
def date? (year : Nat) : Reader Quantity := fun cs => do
  let cs ← restOfDate? year cs
  match cs with
  | c :: rest =>
    if c = 'T' ∨ c = 't' ∨ c = ' ' then
      match hour? rest with
      | some rest => return (.time, ← skipOffset? (← restOfClock? rest))
      | none => return (.time, c :: rest)
    else return (.time, c :: rest)
  | [] => return (.time, [])

/-- A number or a time. -/
def quantity? : Reader Quantity := fun cs =>
  match fixed? 4 0 cs with
  | some (year, '-' :: rest) => date? year ('-' :: rest)
  | _ =>
    match hour? cs with
    | some rest => (restOfClock? rest).map fun rest => (.time, rest)
    | none => number? cs

end SessionCache.Toml
