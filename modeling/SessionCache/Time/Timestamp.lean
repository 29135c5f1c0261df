import SessionCache.Decimal.Double
import SessionCache.Text.Characters
import SessionCache.Time.Calendar
import SessionCache.Time.Instant

/-!
# Timestamps

The text of a time: date, `T`, time of day, fraction, zone. There are two readers. A strict one
takes fields of fixed width; a lenient one also takes short fields, signed years, and blanks
between the fields. Both know leap seconds: the clock never shows one, but a text can.

* `Stamp`: a time as a text can give it.
* `Timestamp.text`: in UTC with `Z`; `Timestamp.numericText`: in UTC with `+00:00`. The fraction
  has 0, 3, 6 or 9 digits, the fewest that are exact.
* `Timestamp.second`: date and time to the second, for tables.
* `Timestamp.ofText?`, `Timestamp.ofLenientText?`: the two readers.
-/

namespace SessionCache

/-- A time as a text can give it: an instant, or a moment of the leap second that follows it, so
many nanoseconds after its start. The instant is then the last one before the leap second, so that
a cutoff comes after the moment exactly if it comes after the instant. -/
structure Stamp where
  instant : Instant
  leap : Option Nat
  deriving DecidableEq, Repr

namespace Stamp

instance : Coe Instant Stamp := ⟨fun t => ⟨t, none⟩⟩

/-- 0 for an instant, and `n + 1` for the nanosecond `n` of a leap second. -/
def leapRank (s : Stamp) : Nat := s.leap.elim 0 (· + 1)

/-- The order of times, leap seconds included. -/
def precedes (a b : Stamp) : Bool :=
  a.instant < b.instant || a.instant == b.instant && a.leapRank ≤ b.leapRank

end Stamp

namespace Timestamp

open Time Text

/-! ## Writing -/

/-- `n` in decimal, with zeros in front up to `width`. -/
def padded (width n : Nat) : String :=
  let digits := toString n
  String.ofList (List.replicate (width - digits.length) '0') ++ digits

/-- Four digits; years outside of 0 to 9999 carry their sign. -/
def yearText (year : Int) : String :=
  if 0 ≤ year ∧ year ≤ 9999 then padded 4 year.toNat
  else if year < 0 then "-" ++ padded 4 year.natAbs
  else "+" ++ padded 4 year.natAbs

/-- The fraction of a second: nothing, or a point and 3, 6 or 9 digits. -/
def fractionText (nanos : Nat) : String :=
  if nanos = 0 then ""
  else if nanos % 1000000 = 0 then "." ++ padded 3 (nanos / 1000000)
  else if nanos % 1000 = 0 then "." ++ padded 6 (nanos / 1000)
  else "." ++ padded 9 nanos

/-- The date, the second of the day, and the nanosecond of the second. -/
def parts (t : Instant) : Date × Nat × Nat :=
  let seconds := t.nanos / 1000000000
  (Date.ofDays (seconds / 86400), (seconds % 86400).toNat, (t.nanos % 1000000000).toNat)

/-- The date. -/
def dateText (d : Date) : String :=
  yearText d.year ++ "-" ++ padded 2 d.month ++ "-" ++ padded 2 d.day

/-- The time of day, to the second; a leap second has the number after that of its instant. -/
def clockText (secondOfDay : Nat) (leap : Bool) : String :=
  padded 2 (secondOfDay / 3600) ++ ":" ++ padded 2 (secondOfDay / 60 % 60) ++ ":" ++
    padded 2 (secondOfDay % 60 + if leap then 1 else 0)

/-- Date, `T`, time of day and fraction. -/
def localText (s : Stamp) : String :=
  let (date, second, nanos) := parts s.instant
  dateText date ++ "T" ++ clockText second s.leap.isSome ++ fractionText (s.leap.getD nanos)

/-- The text of a time, ending in `Z`. -/
def text (s : Stamp) : String := localText s ++ "Z"

/-- The text of a time, ending in `+00:00`. -/
def numericText (s : Stamp) : String := localText s ++ "+00:00"

/-- Date and time of day to the second, ending in `UTC`. -/
def second (s : Stamp) : String :=
  let (date, second, _) := parts s.instant
  dateText date ++ " " ++ clockText second s.leap.isSome ++ " UTC"

/-! ## Reading -/

/-- The value of a decimal digit. -/
def digit? (c : Char) : Option Nat :=
  if '0' ≤ c ∧ c ≤ '9' then some (c.toNat - 48) else none

/-- At most `most` digits from the start, as a number, with the number of digits. -/
def digits (most : Nat) (acc count : Nat) : List Char → Nat × Nat × List Char
  | [] => (acc, count, [])
  | c :: cs =>
    if count < most then
      match digit? c with
      | some d => digits most (acc * 10 + d) (count + 1) cs
      | none => (acc, count, c :: cs)
    else (acc, count, c :: cs)

/-- A number of `least` to `most` digits, and the rest. -/
def number? (least most : Nat) (cs : List Char) : Option (Nat × List Char) :=
  let (n, count, rest) := digits most 0 0 cs
  if count < least then none else some (n, rest)

/-- The rest after the character `c`. -/
def literal? (c : Char) : List Char → Option (List Char)
  | x :: rest => if x = c then some rest else none
  | [] => none

/-- The rest after `T`, `t` or a blank. -/
def separator? : List Char → Option (List Char)
  | c :: rest => if c = 't' ∨ c = 'T' ∨ c = ' ' then some rest else none
  | [] => none

/-- An optional fraction of a second: digits past the ninth are dropped. -/
def fraction? (cs : List Char) : Option (Nat × List Char) :=
  match cs with
  | '.' :: rest =>
    let (n, count, rest) := digits 9 0 0 rest
    if count = 0 then none
    else some (n * tenTo (9 - count), rest.dropWhile fun c => (digit? c).isSome)
  | _ => some (0, cs)

/-- A signed offset from UTC in minutes, below 24 hours; `colon` drops what may stand between
hours and minutes. -/
def offset? (colon : List Char → Option (List Char)) (cs : List Char) :
    Option (Int × List Char) :=
  match cs with
  | 'Z' :: rest => some (0, rest)
  | 'z' :: rest => some (0, rest)
  | sign :: rest => do
    let positive ← if sign = '+' then some true
      else if sign = '-' ∨ sign = '−' then some false else none
    let (h, rest) ← number? 2 2 rest
    let rest ← colon rest
    let (m, rest) ← number? 2 2 rest
    let total := h * 60 + m
    if m < 60 ∧ total < 1440 then return (if positive then (total : Int) else -(total : Int), rest)
    else none
  | [] => none

/-- Puts a time together. Second 60 of any minute is a leap second. The calendar has to reach the
time both where the text was written and in UTC. -/
def assemble? (date : Date) (hour minute second nanos : Nat) (offset : Int) : Option Stamp :=
  if date.isValid ∧ hour < 24 ∧ minute < 60 ∧ second ≤ 60 ∧
      -262143 ≤ date.year ∧ date.year ≤ 262142 then
    let inDay := hour * 3600 + minute * 60 + min second 59
    let start := (date.toDays * 86400 + (inDay : Int) - offset * 60) * 1000000000
    let stamp : Stamp :=
      if second = 60 then ⟨⟨start + 999999999⟩, some nanos⟩ else ⟨⟨start + (nanos : Int)⟩, none⟩
    if Instant.earliest ≤ stamp.instant ∧ stamp.instant ≤ Instant.latest then some stamp else none
  else none

/-- Reads a timestamp with fields of fixed width and nothing around it. -/
def ofChars? (cs : List Char) : Option Stamp := do
  let (year, cs) ← number? 4 4 cs
  let cs ← literal? '-' cs
  let (month, cs) ← number? 2 2 cs
  let cs ← literal? '-' cs
  let (day, cs) ← number? 2 2 cs
  let cs ← separator? cs
  let (hour, cs) ← number? 2 2 cs
  let cs ← literal? ':' cs
  let (minute, cs) ← number? 2 2 cs
  let cs ← literal? ':' cs
  let (second, cs) ← number? 2 2 cs
  let (nanos, cs) ← fraction? cs
  let (offset, cs) ← offset? (literal? ':') cs
  if cs.isEmpty then assemble? ⟨year, month, day⟩ hour minute second nanos offset else none

/-- Reads a timestamp with fields of fixed width and nothing around it. -/
def ofText? (text : String) : Option Stamp := ofChars? text.toList

/-- A year with an optional sign; without one it has at most four digits. -/
def lenientYear? (cs : List Char) : Option (Int × List Char) :=
  match trimStart cs with
  | '-' :: rest => (number? 1 rest.length rest).map fun (n, rest) => (-(n : Int), rest)
  | '+' :: rest => (number? 1 rest.length rest).map fun (n, rest) => ((n : Int), rest)
  | rest => (number? 1 4 rest).map fun (n, rest) => ((n : Int), rest)

/-- One or two digits after any blanks. -/
def lenientField? (cs : List Char) : Option (Nat × List Char) := number? 1 2 (trimStart cs)

/-- The zone of the lenient form: also the letters `UTC`, and an offset whose colon may be
missing. -/
def lenientZone? (cs : List Char) : Option (Int × List Char) :=
  let cs := trimStart cs
  match cs with
  | a :: b :: c :: rest =>
    if a.toUpper = 'U' ∧ b.toUpper = 'T' ∧ c.toUpper = 'C' then some (0, rest)
    else offset? (fun cs => some (cs.dropWhile fun c => c = ':' || isBlank c)) cs
  | _ => offset? (fun cs => some (cs.dropWhile fun c => c = ':' || isBlank c)) cs

/-- Reads a timestamp whose fields may be short and apart from each other. -/
def ofLenientChars? (cs : List Char) : Option Stamp := do
  let (year, cs) ← lenientYear? cs
  let cs ← literal? '-' (trimStart cs)
  let (month, cs) ← lenientField? cs
  let cs ← literal? '-' (trimStart cs)
  let (day, cs) ← lenientField? cs
  let cs ← separator? cs
  let (hour, cs) ← lenientField? cs
  let cs ← literal? ':' (trimStart cs)
  let (minute, cs) ← lenientField? cs
  let cs ← literal? ':' (trimStart cs)
  let (second, cs) ← lenientField? cs
  let (nanos, cs) ← fraction? cs
  let (offset, cs) ← lenientZone? cs
  if (trimStart cs).isEmpty then assemble? ⟨year, month, day⟩ hour minute second nanos offset
  else none

/-- Reads a timestamp whose fields may be short and apart from each other. -/
def ofLenientText? (text : String) : Option Stamp := ofLenientChars? text.toList

end Timestamp

end SessionCache
