import SessionCache.Scenario.Outside

/-!
# Several caches

A scenario has more than one cache once it was restarted: operations that began on an earlier one
go on with it, and so do the sessions that are checked out from it. Likewise there can be several
backends. The world holds one cache and one backend at a time, those that are in focus; the others
are kept aside, each under its number.

* `inCache` does something with a cache in focus, together with the backend that it was made for.
* `inOpenBackend` does something with the backend in focus that the steps on the store see.
-/

namespace SessionCache.Scenario

/-- `o` with the cache and the backend in focus put back in their places. -/
def Outside.gathered (o : Outside) (cache : Cache Cart) (signals : Nat) (backend : Backend) :
    Outside :=
  { o with
    homes := o.homes.modify o.focus.cache fun home => { home with cache, signals }
    backends := o.backends.set o.focus.backend backend }

/-- Puts another cache and backend in focus. -/
def turnTo (focus : Focus) : Play Unit := modify fun w =>
  let outside := w.outside.gathered w.cache w.signals w.store.backend
  match outside.homes[focus.cache]?, outside.backends[focus.backend]? with
  | some home, some backend =>
    { w with
      cache := home.cache
      signals := home.signals
      store := { w.store with backend }
      outside := { outside with focus } }
  | _, _ => w

/-- Runs `action` with a focus, and goes back to the one before. -/
def withFocus {α : Type} (focus : Focus) (action : Play α) : Play α := do
  let before := (← get).outside.focus
  turnTo focus
  let result ← action
  turnTo before
  return result

/-- Runs `action` with a cache in focus, which is `busy` meanwhile. -/
def inCache {α : Type} (number : Nat) (action : Play α) : Play α := do
  match (← get).outside.homes[number]? with
  | none => action
  | some home =>
    modifyOutside fun o => { o with busy := number :: o.busy }
    let result ← withFocus ⟨number, home.backend⟩ action
    modifyOutside fun o => { o with busy := o.busy.tail }
    return result

/-- Runs `action` with the open backend in focus. -/
def inOpenBackend {α : Type} (action : Play α) : Play α := do
  let o := (← get).outside
  withFocus { o.focus with backend := o.openBackend } action

/-- Adds a cache over the open backend, which becomes the current one. -/
def addCache (cache : Cache Cart) : Play Unit := modifyOutside fun o =>
  { o with
    homes := o.homes ++ [{ cache, backend := o.openBackend }]
    current := some o.homes.length }

/-- Adds a backend, which becomes the open one. -/
def addBackend (backend : Backend) : Play Unit := modifyOutside fun o =>
  { o with backends := o.backends ++ [backend], openBackend := o.backends.length }

end SessionCache.Scenario
