import SessionCache.Session.Key
import SessionCache.Time.Instant

/-!
# Who is in use, and since when the others are idle

A `Usage` tracks keys. Each was last marked as in use or as idle, and has a time since which it
counts as idle; marking a key as in use leaves that time alone.

* `Usage.sweep` lists the idle keys that have been idle for longer than the timeout, the longest
  first; `Usage.isExpired` says the same of one key.
* `Usage.idleCount_add_inUseCount`: each tracked key is one or the other.
-/

namespace SessionCache

/-- What is tracked of one key: whether it is in use, and since when it is idle. -/
structure UsageEntry where
  key : Key
  inUse : Bool
  idleSince : Instant
  deriving DecidableEq

/-- The tracked keys, each at most once, and the timeout that `sweep` compares with. -/
structure Usage where
  entries : List UsageEntry := []
  idleTimeout : Option Duration := none
  deriving DecidableEq

namespace Usage

/-- The entry of `key`. -/
def find? (u : Usage) (key : Key) : Option UsageEntry := u.entries.find? (·.key = key)

/-- Sets `inUse` for `key` and leaves `idleSince`; a key that is not tracked gets an entry with
`idleSince := now`. -/
def markInUse (u : Usage) (now : Instant) (key : Key) : Usage :=
  match u.find? key with
  | some _ =>
    { u with entries := u.entries.map fun e => if e.key = key then { e with inUse := true } else e }
  | none => { u with entries := u.entries ++ [⟨key, true, now⟩] }

/-- Gives `key` the entry with `inUse := false` and `idleSince := now`. -/
def markIdle (u : Usage) (now : Instant) (key : Key) : Usage :=
  { u with entries := u.entries.filter (·.key ≠ key) ++ [⟨key, false, now⟩] }

/-- Takes the entry of `key` away. -/
def forget (u : Usage) (key : Key) : Usage :=
  { u with entries := u.entries.filter (·.key ≠ key) }

/-- Whether `key` has an entry with `inUse`. -/
def isInUse (u : Usage) (key : Key) : Bool := (u.find? key).any (·.inUse)

/-- Whether `e` is not in use and `now - e.idleSince > timeout`. -/
def overdue (timeout : Duration) (now : Instant) (e : UsageEntry) : Bool :=
  !e.inUse && timeout < now.since e.idleSince

/-- Whether the entry of `key` is `overdue` for `idleTimeout`. -/
def isExpired (u : Usage) (key : Key) (now : Instant) : Bool :=
  match u.idleTimeout, u.find? key with
  | some timeout, some e => overdue timeout now e
  | _, _ => false

/-- The keys whose entries are `overdue`, those with the earliest `idleSince` first. -/
def sweep (u : Usage) (now : Instant) : List Key :=
  match u.idleTimeout with
  | none => []
  | some timeout =>
    let overdueOnes := u.entries.filter (overdue timeout now)
    (overdueOnes.mergeSort fun a b => a.idleSince ≤ b.idleSince).map (·.key)

/-- The number of entries without `inUse`. -/
def idleCount (u : Usage) : Nat := u.entries.countP fun e => !e.inUse

/-- The number of entries with `inUse`. -/
def inUseCount (u : Usage) : Nat := u.entries.countP fun e => e.inUse

/-- The number of entries. -/
def size (u : Usage) : Nat := u.entries.length

/-- Whether there is no entry. -/
def isEmpty (u : Usage) : Bool := u.entries.isEmpty

theorem idleCount_add_inUseCount (u : Usage) : u.idleCount + u.inUseCount = u.size := by
  unfold idleCount inUseCount size
  induction u.entries with
  | nil => rfl
  | cons e rest ih => cases h : e.inUse <;> simp [h] <;> omega

end Usage

end SessionCache
