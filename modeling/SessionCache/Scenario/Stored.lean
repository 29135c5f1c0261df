import SessionCache.Scenario.Focus

/-!
# Steps on the store

These steps go past the cache to its store, to the backend behind it, or to what the backend keeps
its records in.

* `performStore` performs such a step.
-/

namespace SessionCache.Scenario

/-- The setup of a scenario. -/
structure Setup where
  settings : Settings := {}
  backend : Backend
  containsByGet : Bool := false
  interceptors : List String := []
  /-- Callbacks add marks to the carts. -/
  marks : Bool := false
  /-- A backend that is reopened is empty. -/
  volatile : Bool := true
  /-- The reported size of a directory that was just made. -/
  directorySize : Nat := 0

/-- An empty cache. -/
def Setup.newCache (setup : Setup) : Cache Cart where
  usage := { idleTimeout := setup.settings.idleTimeout }

/-- The key of a step, or the answer that it has none. -/
def resolve (ref : KeyRef) : Play (Except Answer Key) := do
  match ref with
  | .known key => return .ok key
  | .made n =>
    if n < (← get).outside.made then return .ok (madeKey n)
    else return .error (.skipped "unallocated key")
  | .malformed => return .error .invalidKey
  | .missing => return .error (.skipped "no key")

/-- Runs `action` with the key of a step. -/
def withKey (ref : KeyRef) (action : Key → Play Answer) : Play Answer := do
  match ← resolve ref with
  | .ok key => action key
  | .error answer => return answer

/-- Runs `action` on the open backend, which is not that of the cache after `reopen`. -/
def onStore {α : Type} (action : StateM Store α) : Play α := inOpenBackend do
  let w ← get
  let (result, store) := action.run w.store
  set { w with store }
  return result

/-- The answer of an operation on the sessions in the store. -/
def session {α : Type} (encode : α → Answer) (action : SessionStoreM α) : Play Answer := do
  match ← onStore action.run with
  | .ok a => return encode a
  | .error e => return .failed e

/-- The answer of a call to the backend. -/
def direct {α : Type} (encode : α → Answer) (action : StoreM α) : Play Answer := do
  match ← onStore action.run with
  | .ok a => return encode a
  | .error e => return .storeFailed e

/-- Sets or clears a `Fault`. -/
def setFault (call : CallName) (key : Option Key) (error : Option StoreError) : Play Unit := do
  let others := (← get).outside.faults.filter (·.call ≠ call)
  let faults := others ++ (error.map fun error => { call, key, error : Fault }).toList
  modify fun w => { w with
    outside := { w.outside with faults }
    store := { w.store with fault := fun _ => Outside.faultOf? faults } }

/-- Changes the directory of the records, if the backend is one. -/
def onDirectory (f : Directory → Except IoCause Directory) : Play Answer :=
  onStore do
    let s ← get
    match s.backend with
    | .directory path d =>
      set { s with backend := .directory path ((f d).toOption.getD d) }
      return .done
    | _ => return .skipped "not a directory"

/-- An empty backend of the same kind. -/
def emptied : Backend → Backend
  | .memory _ => .memory {}
  | .table _ => .table {}
  | .directory path _ => .directory path .empty

/-- The backend that is found in the place of this one when it is opened. -/
def openedAgain : Backend → Except StoreError Backend
  | .directory path d => d.opened.map (.directory path)
  | other => .ok other

/-- Reopens the backend. A volatile one is empty then, and caches keep the one that they have. -/
def reopen (setup : Setup) : Play Answer := inOpenBackend do
  let w ← get
  if setup.volatile then
    addBackend (emptied w.store.backend)
    return .done
  else
    match openedAgain w.store.backend with
    | .error e => return .storeFailed e
    | .ok backend =>
      set { w with store := { w.store with backend } }
      return .done

/-- Runs a step on the store. -/
def performStore (setup : Setup) : StoreStep → Play Answer
  | .passivate ref cart => withKey ref fun key => do
    let now := (← get).now
    session (fun _ => .done) (Store.passivate Cart.codec now key cart)
  | .passivateValue ref value => withKey ref fun key => do
    let now := (← get).now
    session (fun _ => .done) (Store.passivate Codec.json now key value)
  | .activate ref => withKey ref fun key => session .state (Store.activate Cart.codec key)
  | .activateValue ref => withKey ref fun key => session .value (Store.activate Codec.json key)
  | .inspect ref => withKey ref fun key => session .value (Store.inspect key)
  | .remove ref => withKey ref fun key => session .flag (Store.remove key)
  | .holds ref => withKey ref fun key => session .flag (Store.holds key)
  | .records => session .records Store.records
  | .purgeOlderThan cutoff => session .keys (Store.purgeOlderThan cutoff)
  | .backendName => onStore do return .name (← get).backend.name
  | .putBytes ref bytes => withKey ref fun key => do
    let now := (← get).now
    direct (fun _ => .done) (Store.put now key bytes)
  | .getBytes ref => withKey ref fun key => direct .bytes (Store.get key)
  | .deleteBytes ref => withKey ref fun key => direct .flag (Store.delete key)
  | .list => direct .records Store.list
  | .fault call ref error => do
    match ref with
    | none =>
      setFault call none error
      return .done
    | some ref => withKey ref fun key => do
      setFault call (some key) error
      return .done
  | .reopen => reopen setup
  | .placeFile name bytes => do
    let now := (← get).now
    onDirectory fun d => d.placeFile now name bytes
  | .makeDirectory name => do
    let now := (← get).now
    onDirectory fun d => d.makeDirectory now name setup.directorySize
  | .names =>
    onStore do
      match (← get).backend with
      | .directory _ d =>
        match d.folder.names with
        | .ok names => return .names names
        | .error cause => return .storeFailed (.io cause)
      | _ => return .skipped "not a directory"
  | .removeRoot => onDirectory fun d => .ok d.removed
  | .breakRoot => onDirectory fun _ => .ok .blocked
  | .placeRow row =>
    onStore do
      let s ← get
      match s.backend with
      | .table t =>
        set { s with backend := .table (t.insert row) }
        return .done
      | _ => return .skipped "not a table"

end SessionCache.Scenario
