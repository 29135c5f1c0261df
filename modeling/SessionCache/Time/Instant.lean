import SessionCache.Decimal.Double

/-!
# Points in time and durations

Times are counted in whole nanoseconds: an `Instant` from the start of 1970 (UTC), a `Duration`
from zero up to `Duration.longest`. One clock serves both for reading the time of day and for
measuring how long something took. What is taken from an instant of the calendar is a `Span`, which
does not reach as far as a duration.

* `Instant.since_eq_zero_iff`: elapsed time never goes below zero.
* `Instant.after?` has no answer past the clock's last second.
* `Instant.minus?` has no answer past the ends of the calendar, where `Instant.before` stops at the
  earliest time.
-/

namespace SessionCache

/-- A length of time. -/
structure Duration where
  nanos : Nat
  deriving DecidableEq, Repr, Inhabited

/-- A point in time: nanoseconds since the start of 1970, UTC. -/
structure Instant where
  nanos : Int
  deriving DecidableEq, Repr, Inhabited

namespace Duration

instance : LT Duration := ⟨fun a b => a.nanos < b.nanos⟩
instance : LE Duration := ⟨fun a b => a.nanos ≤ b.nanos⟩
instance (a b : Duration) : Decidable (a < b) := inferInstanceAs (Decidable (a.nanos < b.nanos))
instance (a b : Duration) : Decidable (a ≤ b) := inferInstanceAs (Decidable (a.nanos ≤ b.nanos))

theorem lt_iff {a b : Duration} : a < b ↔ a.nanos < b.nanos := Iff.rfl
theorem le_iff {a b : Duration} : a ≤ b ↔ a.nanos ≤ b.nanos := Iff.rfl

/-- `ms` milliseconds. -/
def ofMillis (ms : Nat) : Duration := ⟨ms * 1000000⟩

/-- `s` seconds. -/
def ofSeconds (s : Nat) : Duration := ⟨s * 1000000000⟩

/-- Whole milliseconds, rounded down. -/
def millis (d : Duration) : Nat := d.nanos / 1000000

/-- The shorter of two durations. -/
def min (a b : Duration) : Duration := if a ≤ b then a else b

/-- The longest duration: 64 bits of seconds and all the nanoseconds. -/
def longest : Duration := ⟨twoTo 64 * 1000000000 - 1⟩

@[simp] theorem millis_ofMillis (ms : Nat) : (ofMillis ms).millis = ms := by
  simp [ofMillis, millis]

end Duration

/-- The nanoseconds that a span can have: its milliseconds fit in 63 bits. -/
def mostSpanNanos : Nat := (twoTo 63 - 1) * 1000000

/-- A length of time that can be taken from an instant of the calendar. -/
structure Span where
  nanos : Nat
  nanos_le : nanos ≤ mostSpanNanos
  deriving DecidableEq

namespace Span

/-- The longest span. -/
def longest : Span := ⟨mostSpanNanos, Nat.le_refl _⟩

/-- A duration as a span, if it is not too long for one. -/
def ofDuration? (d : Duration) : Option Span :=
  if h : d.nanos ≤ mostSpanNanos then some ⟨d.nanos, h⟩ else none

end Span

namespace Instant

instance : LT Instant := ⟨fun a b => a.nanos < b.nanos⟩
instance : LE Instant := ⟨fun a b => a.nanos ≤ b.nanos⟩
instance (a b : Instant) : Decidable (a < b) := inferInstanceAs (Decidable (a.nanos < b.nanos))
instance (a b : Instant) : Decidable (a ≤ b) := inferInstanceAs (Decidable (a.nanos ≤ b.nanos))

theorem lt_iff {a b : Instant} : a < b ↔ a.nanos < b.nanos := Iff.rfl
theorem le_iff {a b : Instant} : a ≤ b ↔ a.nanos ≤ b.nanos := Iff.rfl

/-- The first instant of the calendar, the start of the year -262143. -/
def earliest : Instant := ⟨-8334601228800 * 1000000000⟩

/-- The last instant of the calendar, the end of the year 262142. -/
def latest : Instant := ⟨8210266876800 * 1000000000 - 1⟩

/-- The last instant that the clock can be compared with: 63 bits of seconds. -/
def horizon : Instant := ⟨(twoTo 63 : Int) * 1000000000 - 1⟩

/-- `now - earlier`, or zero if `earlier` is to come. -/
def since (now earlier : Instant) : Duration := ⟨(now.nanos - earlier.nanos).toNat⟩

/-- `t + d`. -/
def plus (t : Instant) (d : Duration) : Instant := ⟨t.nanos + d.nanos⟩

/-- `t + d`, if that is not past `horizon`. -/
def after? (t : Instant) (d : Duration) : Option Instant :=
  if t.plus d ≤ horizon then some (t.plus d) else none

/-- `t - s`, if that is in the calendar. -/
def minus? (t : Instant) (s : Span) : Option Instant :=
  let u : Instant := ⟨t.nanos - s.nanos⟩
  if earliest ≤ u ∧ u ≤ latest then some u else none

/-- `t - d`, or `earliest` if the calendar does not reach that far. A `d` that is no `Span` counts
as the longest one. -/
def before (t : Instant) (d : Duration) : Instant :=
  (t.minus? ((Span.ofDuration? d).getD .longest)).getD earliest

/-- The later of two instants. -/
def max (t u : Instant) : Instant := if t ≤ u then u else t

theorem since_eq_zero_iff {now earlier : Instant} :
    (now.since earlier).nanos = 0 ↔ now ≤ earlier := by
  simp only [since, le_iff]; omega

end Instant

end SessionCache
