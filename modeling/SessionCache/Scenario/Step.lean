import SessionCache.Decimal.Double
import SessionCache.Record.Cart
import SessionCache.Session.Key
import SessionCache.Store.Sessions

/-!
# Steps of a scenario

A scenario is a script of steps against a cache of carts, its store, its clock and its sweeper.
Steps can also be put off: a `Rule` runs steps inside of a callback, and a `Scheduled` step runs
once another step has waited for room long enough.

Keys that the cache makes are not known when a script is written; a `KeyRef` names them by the
order in which they are made.
-/

namespace SessionCache.Scenario

open Json

/-- The key of a step. -/
inductive KeyRef where
  | known (key : Key)
  /-- The `n`th key that was made. -/
  | made (n : Nat)
  /-- A text that is not a key. -/
  | malformed
  /-- The step has no key. -/
  | missing
  deriving DecidableEq

/-- The keys that are made have the digits of this number plus their own. -/
def madeBase : Nat := 0x5e55101700004000b000000000000000

/-- The key that is made after `n` others. -/
def madeKey (n : Nat) : Key := .ofNat (madeBase + n)

/-- The number of a key that a scenario makes. -/
def madeNumber? (key : Key) : Option Nat :=
  let number := Text.Hex.toNat key.digits.toList
  if madeBase ≤ number ∧ number < madeBase + twoTo 48 then some (number - madeBase) else none

/-- The order of keys in listings: `madeKey`s first, in their order, and then the others by their
digits. -/
def precedes (a b : Key) : Bool :=
  match madeNumber? a, madeNumber? b with
  | some m, some n => m < n
  | some _, none => true
  | none, some _ => false
  | none, none => a < b

/-- The calls of a backend that can fail. -/
inductive CallName where
  | put
  | get
  | delete
  | contains
  | list
  deriving DecidableEq, Repr

/-- The name and the key of a call. -/
def CallName.ofCall : StoreCall → CallName × Option Key
  | .put key => (.put, some key)
  | .get key => (.get, some key)
  | .delete key => (.delete, some key)
  | .contains key => (.contains, some key)
  | .list => (.list, none)

/-- A change to a cart. -/
structure Edit where
  push : Option String := none
  owner : Option String := none
  calls : Option UInt64 := none
  note : Option (Option String) := none
  clear : Bool := false

/-- The cart after an `Edit`. -/
def Edit.apply (e : Edit) (cart : Cart) : Cart :=
  let cart := { cart with
    items := cart.items ++ e.push.toList
    owner := e.owner.getD cart.owner
    calls := e.calls.getD cart.calls
    note := e.note.getD cart.note }
  if e.clear then { cart with items := [], note := none } else cart

/-- A step on the store alone. -/
inductive StoreStep where
  | passivate (key : KeyRef) (cart : Cart)
  | passivateValue (key : KeyRef) (value : Value)
  | activate (key : KeyRef)
  | activateValue (key : KeyRef)
  | inspect (key : KeyRef)
  | remove (key : KeyRef)
  | holds (key : KeyRef)
  | records
  | purgeOlderThan (cutoff : Instant)
  | backendName
  /-- The next four are calls to the backend itself. -/
  | putBytes (key : KeyRef) (bytes : ByteArray)
  | getBytes (key : KeyRef)
  | deleteBytes (key : KeyRef)
  | list
  /-- Makes calls of a name fail, for one key or for all, or lets them pass again. -/
  | fault (call : CallName) (key : Option KeyRef) (error : Option StoreError)
  /-- Reopens the backend. -/
  | reopen
  /-- Puts an entry into the directory of the records. -/
  | placeFile (name : String) (bytes : ByteArray)
  | makeDirectory (name : String)
  | names
  /-- Removes the directory of records. -/
  | removeRoot
  /-- Puts a regular file in the place of the directory of records. -/
  | breakRoot
  /-- Puts a row into the table of records. -/
  | placeRow (row : Row)

/-- A step of a scenario. -/
inductive Step where
  | create (cart : Cart)
  | get (key : KeyRef)
  | mutate (key : KeyRef) (edit : Edit)
  | finish (key : KeyRef)
  /-- `Op.finish` of a session, whatever it answers. -/
  | letGo (key : KeyRef)
  | removeOnFinish (key : KeyRef)
  | peek (key : KeyRef)
  | contains (key : KeyRef)
  | remove (key : KeyRef)
  | keys
  | size
  | sweep
  | passivateAll
  | expirePassivated
  | stats
  | settings
  | startSweeper
  | stopSweeper
  | sweeperRunning
  /-- `letGo` of every session, and a new cache over the same store. -/
  | restart
  /-- `letGo` of every session, and no cache any more. -/
  | dropCache
  | advance (d : Duration)
  | store (step : StoreStep)
  /-- Adds a rule for the callbacks of `point`, with the steps that it runs, each under its name. -/
  | rule (point : String) (concerns : Key → Bool) (skip : Nat) (times : Option Nat)
      (failure : Option String) (run : List (String × Step))
  | clearRules
  /-- A step with a name that is not known. -/
  | unknown (name : String)
  deriving Inhabited

/-- What the callbacks of a point do. -/
structure Rule where
  point : String
  concerns : Key → Bool
  /-- How many it passes over first. -/
  skip : Nat
  /-- How many it applies to; `none` for all. -/
  times : Option Nat
  /-- The message with which the callback fails. -/
  failure : Option String
  /-- The steps that run inside of the callback. -/
  run : List (String × Step)

/-- A step that runs while another one waits. -/
structure Scheduled where
  due : Instant
  step : Step

/-- A step of a script, with the steps that run while it waits. -/
structure Line where
  step : Step
  /-- Delays from the start of the step; `none` if none were asked for. -/
  during : Option (List (Duration × Step)) := none

end SessionCache.Scenario
