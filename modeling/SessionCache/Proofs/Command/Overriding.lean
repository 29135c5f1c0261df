import SessionCache.Command.Run
import SessionCache.Proofs.Config.Resolving

/-!
# What the switches of a simulation override

The switches of a simulation are put on top of the files and of the switches that every command
has. The configuration is checked twice: without them, since the log is opened before the
simulation starts, and with them.

* `Layer.flaw?_of_merge_overrides`: the second check finds a flaw wherever the first one did, unless
  the plan makes room where the rest of the configuration leaves none.
* `Command.perform_simulate`: which configuration a simulation runs with, and when it is turned
  down.
-/

namespace SessionCache

/-! ## What a plan overrides -/

namespace Layer

/-- `plan.overrides` does not set the `kind`. -/
theorem kind_merge_overrides (layer : Layer) (plan : Plan) :
    (layer.merge plan.overrides).kind = layer.kind := by
  rw [kind, value?_merge]
  rfl

/-- `plan.overrides` only takes a flaw away if `layer` has `maxSize = 0` and the plan another
one. -/
theorem flaw?_of_merge_overrides {layer : Layer} {plan : Plan}
    (hroom : (layer.value? .maxSize : Option Nat) = some 0 → ∀ n, plan.maxSize = some n → n = 0)
    (h : (layer.merge plan.overrides).flaw? = none) : layer.flaw? = none := by
  rw [flaw?_eq_none_iff, kind_merge_overrides, value?_merge, value?_merge, value?_merge] at h
  obtain ⟨hsize, hinterval, hpath⟩ := h
  refine (flaw?_eq_none_iff layer).2 ⟨fun hnone => hsize ?_, hinterval, hpath⟩
  have hplan : plan.overrides.value? .maxSize = plan.maxSize := rfl
  rw [hplan]
  cases hmax : plan.maxSize with
  | none => exact hnone
  | some n => rw [hroom hnone n hmax]; rfl

end Layer

namespace Command

/-! ## How a command fails -/

/-- Every failure of `action` is of this kind. -/
def Action.FailsBy {α : Type} (kind : Failure → Prop) (action : Action α) : Prop :=
  ∀ site failure site', action.run.run site = (.error failure, site') → kind failure

namespace Action.FailsBy

variable {α β : Type} {kind : Failure → Prop}

theorem pure (a : α) : FailsBy kind (Pure.pure a : Action α) := by
  intro site failure site' h
  cases h

theorem throw {failure : Failure} (h : kind failure) : FailsBy kind (throw failure : Action α) := by
  intro site f site' hrun
  cases hrun
  exact h

theorem bind {action : Action α} {next : α → Action β} (h : FailsBy kind action)
    (hnext : ∀ a, FailsBy kind (next a)) : FailsBy kind (action >>= next) := by
  intro site failure site' hrun
  rw [ExceptT.run_bind, StateT.run_bind] at hrun
  cases hfirst : action.run.run site with
  | mk result middle =>
    rw [hfirst] at hrun
    cases result with
    | ok a => exact hnext a middle failure site' hrun
    | error e =>
      cases hrun
      exact h _ _ _ hfirst

theorem site : FailsBy kind Action.site := by
  intro site failure site' h
  cases h

theorem modify (f : Site → Site) : FailsBy kind (modifyThe Site f : Action Unit) := by
  intro site failure site' h
  cases h

theorem orFail {ε : Type} {failure : ε → Failure} (h : ∀ e, kind (failure e))
    (result : Except ε α) : FailsBy kind (Action.orFail failure result) := by
  cases result with
  | ok a => exact .pure a
  | error e => exact .throw (h e)

theorem makeDirectories {failure : IoCause → Failure} (h : ∀ cause, kind (failure cause))
    (path : String) : FailsBy kind (Action.makeDirectories failure path) :=
  .bind .site fun _ => .bind (.modify _) fun _ => .orFail h _

theorem adapt {ε : Type} {failure : ε → Failure} (h : ∀ e, kind (failure e))
    (action : ExceptT ε (StateM Site) α) : FailsBy kind (ExceptT.adapt failure action) := by
  intro site f site' hrun
  change (match action.run.run site with | (result, site') => (result.mapError failure, site')) =
    (.error f, site') at hrun
  cases hresult : action.run.run site with
  | mk result after =>
    rw [hresult] at hrun
    cases result with
    | ok a => cases hrun
    | error e =>
      cases hrun
      exact h e

theorem withStore {work : Store → Except Failure α × Store}
    (h : ∀ store failure, (work store).1 = .error failure → kind failure) (opened : Opened) :
    FailsBy kind (Action.withStore opened work) := by
  have hkeep (keeping : Keeping) (backend : Backend) :
      FailsBy kind (Action.keep keeping backend) := by
    refine .bind .site fun site => ?_
    split
    · exact .modify _
    · exact .modify _
    · exact .pure ()
  refine .bind (hkeep _ _) fun _ => ?_
  cases hwork : (work opened.store).1 with
  | ok a => exact .pure a
  | error failure => exact .throw (h _ failure hwork)

end Action.FailsBy

/-- A failure of `resolve`. -/
def Failure.IsFlaw : Failure → Prop
  | .configuration _ | .cacheSettings _ => True
  | _ => False

/-- A failure of `openLog`. -/
def Failure.IsOfLog : Failure → Prop
  | .logLevel _ | .logDirectory _ _ => True
  | _ => False

theorem Failure.IsOfLog.not_isFlaw {failure : Failure} (h : failure.IsOfLog) : ¬failure.IsFlaw := by
  cases failure <;> simp_all [IsOfLog, IsFlaw]

theorem Action.openLog_failsBy (options : Options) (r : Resolved) :
    (Action.openLog options r).FailsBy Failure.IsOfLog := by
  unfold Action.openLog
  generalize (if options.verbose then Action.verboseLevel else r.level) = level
  dsimp only
  split
  · refine .bind (.throw (by exact trivial)) fun _ => ?_
    split
    · exact .pure ()
    · exact .makeDirectories (fun _ => trivial) _
  · split
    · exact .pure ()
    · exact .makeDirectories (fun _ => trivial) _

/-- `openStore` with a path where one is needed does not fail with a flaw. -/
theorem Action.openStore_failsBy {r : Resolved} (hpath : r.store.needsPath → r.path ≠ none) :
    (Action.openStore r).FailsBy (¬·.IsFlaw) := by
  have hstorePath (hneeds : r.store.needsPath) : (Action.storePath r).FailsBy (¬·.IsFlaw) := by
    unfold Action.storePath
    cases hset : r.path with
    | none => exact absurd hset (hpath hneeds)
    | some path => exact .pure path
  have hdirectory (path : String) : (Action.openDirectory path).FailsBy (¬·.IsFlaw) :=
    .bind (.makeDirectories (fun _ => id) path) fun _ => .bind .site fun _ => .pure _
  have hdatabase (path : String) : (Action.openDatabase path).FailsBy (¬·.IsFlaw) := by
    unfold Action.openDatabase
    split
    · exact .throw id
    · split_ifs
      · exact .adapt (fun _ => id) _
      · exact .throw id
      · exact .pure _
  unfold Action.openStore
  cases hstore : r.store with
  | memory => exact .pure _
  | file => exact .bind (hstorePath (hstore ▸ rfl)) hdirectory
  | sqlite => exact .bind (hstorePath (hstore ▸ rfl)) hdatabase

/-! ## Simulations -/

/-- `Action.simulate` with its configuration `r` already resolved. -/
def simulateWith (options : Options) (plan : Plan) (r : Resolved) : Action Output := do
  Action.openLog options r
  let site ← Action.site
  let opened ← Action.openStore r
  let summary ← Action.withStore opened (simulateOn site r.store r.settings plan)
  return .summary summary options.json options.verbose

theorem simulateOn_failsBy {site : Site} {kind : StoreKind} {settings : Settings} {plan : Plan}
    {store : Store} {failure : Failure}
    (h : (simulateOn site kind settings plan store).1 = .error failure) : ¬failure.IsFlaw := by
  unfold simulateOn at h
  dsimp only at h
  split at h
  cases hresult : ‹Except CacheError Tally› with
  | ok tally => simp [hresult] at h
  | error cause =>
    simp only [hresult, Except.error.injEq] at h
    exact h ▸ id

/-- `simulateWith` does not fail with a flaw. -/
theorem simulateWith_failsBy (options : Options) (plan : Plan) {r : Resolved}
    (hpath : r.store.needsPath → r.path ≠ none) :
    (simulateWith options plan r).FailsBy (¬·.IsFlaw) := by
  have hlog : (Action.openLog options r).FailsBy (¬·.IsFlaw) := fun site failure site' h =>
    (Action.openLog_failsBy options r site failure site' h).not_isFlaw
  exact .bind hlog fun _ => .bind .site fun _ => .bind (Action.openStore_failsBy hpath) fun _ =>
    .bind (.withStore (fun _ _ => simulateOn_failsBy) _) fun _ => .pure _

/-- The layers of `simulate`, lowest first: the files, the global flags, the plan. -/
def simulationLayers (site : Site) (options : Options) (plan : Plan) : List Layer :=
  (site.discovery options).layers site.view ++ [options.overrides, plan.overrides]

section

variable {site : Site} {options : Options} {plan : Plan} {loaded : Loaded}

/-- Log and store do not depend on the plan. -/
theorem simulate_eq {layer : Layer} :
    (do
      Action.openLog options layer.filled
      simulate options { loaded, layer, resolved := layer.filled } plan) =
    match (layer.merge plan.overrides).flaw? with
    | some e => do
      Action.openLog options layer.filled
      throw (.cacheSettings e)
    | none => simulateWith options plan (layer.merge plan.overrides).filled := by
  have hkept (s : SessionCache.Setting) (h : plan.overrides.value? s = none) :
      (layer.merge plan.overrides).value? s = layer.value? s := by
    rw [Layer.value?_merge, h, Option.none_or]
  have hlevel : (layer.merge plan.overrides).filled.level = layer.filled.level := by
    rw [Layer.filled, Layer.filled, hkept .level rfl]
  have hfile : (layer.merge plan.overrides).filled.file = layer.filled.file := by
    rw [Layer.filled, Layer.filled, hkept .file rfl]
  have hstore : (layer.merge plan.overrides).filled.store = layer.filled.store :=
    Layer.kind_merge_overrides layer plan
  have hpath : (layer.merge plan.overrides).filled.path = layer.filled.path := by
    rw [Layer.filled, Layer.filled, Layer.kind_merge_overrides, hkept .path rfl]
  have hlog : Action.openLog options (layer.merge plan.overrides).filled =
      Action.openLog options layer.filled := by
    rw [Action.openLog, Action.openLog, hlevel, hfile]
  have hopen : Action.openStore (layer.merge plan.overrides).filled =
      Action.openStore layer.filled := by
    rw [Action.openStore, Action.openStore, Action.storePath, Action.storePath, hstore, hpath]
  simp only [simulate, simulationConfig, Layer.resolve_eq]
  cases (layer.merge plan.overrides).flaw? with
  | some e => rfl
  | none =>
    simp only [simulateWith, hlog, hopen, hstore, Action.orFail, pure_bind]

/-- `perform` of a simulation resolves the layer without the plan first. -/
theorem perform_eq (plan : Plan)
    (hload : (site.discovery options).load site.view = .ok loaded) :
    (perform { options, task := .simulate plan }).run.run site =
      match (loaded.layer.merge options.overrides).flaw? with
      | some e => (.error (.configuration e), site)
      | none =>
        (do
          Action.openLog options (loaded.layer.merge options.overrides).filled
          simulate options
            { loaded
              layer := loaded.layer.merge options.overrides
              resolved := (loaded.layer.merge options.overrides).filled } plan).run.run site := by
  have hconfigure : (Action.configure options).run.run site =
      match (loaded.layer.merge options.overrides).flaw? with
      | some e => (.error (.configuration e), site)
      | none => (.ok
        { loaded
          layer := loaded.layer.merge options.overrides
          resolved := (loaded.layer.merge options.overrides).filled }, site) := by
    have hlooked : (Action.configure options).run.run site =
        (do
          let loaded ← Action.orFail .loading ((site.discovery options).load site.view)
          let layer := loaded.layer.merge options.overrides
          let resolved ← Action.orFail .configuration layer.resolve
          return { loaded, layer, resolved : Configured }).run.run site := rfl
    rw [hlooked, hload, Action.orFail]
    simp only [pure_bind, Layer.resolve_eq]
    cases (loaded.layer.merge options.overrides).flaw? <;> rfl
  rw [perform, ExceptT.run_bind, StateT.run_bind, hconfigure]
  cases (loaded.layer.merge options.overrides).flaw? <;> rfl

/-- `perform` with files that fail to load. -/
theorem perform_eq_of_load_error {e : ConfigError}
    (hload : (site.discovery options).load site.view = .error e) :
    (perform { options, task := .simulate plan }).run.run site = (.error (.loading e), site) := by
  have hconfigure : (Action.configure options).run.run site =
      (do
        let loaded ← Action.orFail .loading ((site.discovery options).load site.view)
        let layer := loaded.layer.merge options.overrides
        let resolved ← Action.orFail .configuration layer.resolve
        return { loaded, layer, resolved : Configured }).run.run site := rfl
  rw [perform, ExceptT.run_bind, StateT.run_bind, hconfigure, hload]
  rfl

/-- `perform` of a simulation: the layer without the plan has a flaw, or the one with it, or
`simulateWith` runs. -/
theorem perform_cases (plan : Plan) {layer : Layer}
    (hload : (site.discovery options).load site.view = .ok loaded)
    (hlayer : loaded.layer.merge options.overrides = layer)
    (hroom : (layer.value? .maxSize : Option Nat) = some 0 → ∀ n, plan.maxSize = some n → n = 0) :
    let final := layer.merge plan.overrides
    let outcome := (perform { options, task := .simulate plan }).run.run site
    (∃ e e', final.flaw? = some e ∧ outcome = (.error (.configuration e'), site)) ∨
      (∃ e, final.flaw? = some e ∧ outcome =
        (do Action.openLog options layer.filled; throw (.cacheSettings e) : Action Output).run.run
          site) ∨
      final.flaw? = none ∧ outcome = (simulateWith options plan final.filled).run.run site := by
  intro final outcome
  have houtcome : outcome = _ := perform_eq plan hload
  rw [hlayer] at houtcome
  cases hfinal : final.flaw? with
  | none =>
    rw [Layer.flaw?_of_merge_overrides hroom hfinal, simulate_eq, hfinal] at houtcome
    exact .inr (.inr ⟨rfl, houtcome⟩)
  | some e =>
    rw [simulate_eq, hfinal] at houtcome
    cases hflaw : layer.flaw? with
    | some e' =>
      rw [hflaw] at houtcome
      exact .inl ⟨e, e', rfl, houtcome⟩
    | none =>
      rw [hflaw] at houtcome
      exact .inr (.inl ⟨e, rfl, houtcome⟩)

end

/-- The outcome is a failure of this kind. -/
def EndsBy (kind : Failure → Prop) (outcome : Except Failure Output × Site) : Prop :=
  ∃ failure, outcome.1 = .error failure ∧ kind failure

theorem EndsBy.not_isFlaw {outcome : Except Failure Output × Site}
    (h : EndsBy Failure.IsOfLog outcome) : ¬EndsBy Failure.IsFlaw outcome := by
  rintro ⟨failure, hfailure, hflaw⟩
  obtain ⟨other, hother, hlog⟩ := h
  obtain rfl : failure = other := by simpa [hfailure] using hother
  exact hlog.not_isFlaw hflaw

theorem Action.FailsBy.not_endsBy {kind : Failure → Prop} {action : Action Output}
    (h : action.FailsBy (¬kind ·)) (site : Site) : ¬EndsBy kind (action.run.run site) := by
  rintro ⟨failure, hfailure, hkind⟩
  exact h site failure _ (Prod.ext hfailure rfl) hkind

/-- A failure after `openLog`, or that of `openLog`. -/
theorem endsBy_of_openLog {options : Options} {r : Resolved} {failure : Failure}
    {kind : Failure → Prop} (hkind : kind failure) (site : Site) :
    let outcome := (do Action.openLog options r; throw failure : Action Output).run.run site
    EndsBy Failure.IsOfLog outcome ∨ EndsBy kind outcome := by
  intro outcome
  have houtcome : outcome =
      (do Action.openLog options r; throw failure : Action Output).run.run site := rfl
  rw [ExceptT.run_bind, StateT.run_bind] at houtcome
  cases hlog : (Action.openLog options r).run.run site with
  | mk result after =>
    rw [hlog] at houtcome
    cases result with
    | ok u => exact .inr ⟨failure, congrArg Prod.fst houtcome, hkind⟩
    | error e =>
      exact .inl ⟨e, congrArg Prod.fst houtcome, Action.openLog_failsBy options r site e after hlog⟩

/-- For every site, options and plan with `hroom`: `perform` of a simulation works on the stack of
the files, the global flags and the plan. If that fails to resolve, the outcome is this flaw, or a
failure of the log that came first; else it is `simulateWith` on what it resolves to. `hroom`
excludes a plan that sets `maxSize` where the layers below it have `maxSize = 0`. -/
theorem perform_simulate (site : Site) (options : Options) (plan : Plan)
    (hroom : (Layer.lastValue? ((site.discovery options).layers site.view) .maxSize : Option Nat) =
      some 0 → ∀ n, plan.maxSize = some n → n = 0) :
    let final := Layer.stack (simulationLayers site options plan)
    let outcome := (perform { options, task := .simulate plan }).run.run site
    (∀ path e, options.config = some path → Discovery.loadFile site.view path = .error e →
        outcome = (.error (.loading e), site)) ∧
      ((∀ path, options.config = some path →
          ∃ layer, Discovery.loadFile site.view path = .ok layer) →
        (∀ s, final.value? s = Layer.lastValue? (simulationLayers site options plan) s) ∧
          (EndsBy Failure.IsFlaw outcome ↔
            (∃ e, final.resolve = .error e) ∧ ¬EndsBy Failure.IsOfLog outcome) ∧
          ∀ r, final.resolve = .ok r → outcome = (simulateWith options plan r).run.run site) := by
  intro final outcome
  refine ⟨fun path e hpath he => perform_eq_of_load_error (Discovery.load_error hpath he),
    fun hfile => ⟨Layer.value?_stack _, ?_⟩⟩
  obtain ⟨layer, hlayer⟩ : ∃ layer,
      (Layer.stack ((site.discovery options).layers site.view)).merge options.overrides = layer :=
    ⟨_, rfl⟩
  have hfinal : layer.merge plan.overrides = final := by
    have hsplit : simulationLayers site options plan =
        (site.discovery options).layers site.view ++ [options.overrides] ++ [plan.overrides] :=
      (List.append_assoc _ [options.overrides] [plan.overrides]).symm
    rw [show final = Layer.stack (simulationLayers site options plan) from rfl, hsplit,
      Layer.stack_append_singleton, Layer.stack_append_singleton, hlayer]
  have hsize : (layer.value? .maxSize : Option Nat) =
      Layer.lastValue? ((site.discovery options).layers site.view) .maxSize := by
    rw [← hlayer, ← Layer.value?_stack, Layer.value?_merge]
    rfl
  simp only [Layer.resolve_eq_error_iff, Layer.resolve_eq_ok_iff, ← hfinal]
  rcases perform_cases plan (Discovery.load_ok hfile) hlayer (hsize ▸ hroom) with
    ⟨e, e', hflaw, houtcome⟩ | ⟨e, hflaw, houtcome⟩ | ⟨hflaw, houtcome⟩
  · -- turned down without its switches, and rightly so
    have hturned : EndsBy Failure.IsFlaw outcome := ⟨_, congrArg Prod.fst houtcome, trivial⟩
    refine ⟨⟨fun _ => ⟨⟨e, hflaw⟩, fun hlog => hlog.not_isFlaw hturned⟩, fun _ => hturned⟩, ?_⟩
    simp [hflaw]
  · -- turned down with its switches, once the log is open
    have hends : EndsBy Failure.IsOfLog outcome ∨ EndsBy Failure.IsFlaw outcome := by
      rw [show outcome = _ from houtcome]
      exact endsBy_of_openLog (by exact trivial) site
    refine ⟨⟨fun hturned => ⟨⟨e, hflaw⟩, fun hlog => hlog.not_isFlaw hturned⟩,
      fun h => hends.resolve_left h.2⟩, ?_⟩
    simp [hflaw]
  · have hsettled : ¬EndsBy Failure.IsFlaw outcome := by
      rw [show outcome = _ from houtcome]
      exact (simulateWith_failsBy options plan (Layer.filled_path_ne_none hflaw)).not_endsBy site
    refine ⟨⟨fun h => absurd h hsettled, fun ⟨⟨e, he⟩, _⟩ => by simp [hflaw] at he⟩, ?_⟩
    rintro r ⟨-, rfl⟩
    exact houtcome

/-- A site with a project file of this `content`. -/
def projectSite (content : String) : Site where
  files := { entries := [([Discovery.projectFile], .file content.toUTF8 ⟨0⟩)] }
  workingDirectory := []
  now := ⟨0⟩
  user := {}
  seed := 0
  choices _ _ _ _ := { session := 0, item := { sku := "sku-0", quantity := 1 }, roll := 0 }
  keys := .ofNat
  databases := { toBytes _ := .empty, ofBytes? _ := none }

/-- The plan's `--max-size 5` overrides the 7 of the project file. -/
theorem perform_simulate_five :
    let site := projectSite "[cache]\nmax_size = 7\n"
    let plan : Plan := { maxSize := some 5 }
    (Layer.lastValue? ((site.discovery {}).layers site.view) .maxSize : Option Nat) = some 7 ∧
      ∃ r, (Layer.stack (simulationLayers site {} plan)).resolve = .ok r ∧ r.maxSize = 5 ∧
        (perform { options := {}, task := .simulate plan }).run.run site =
          (simulateWith {} plan r).run.run site := by
  intro site plan
  have hlayers : (site.discovery {}).layers site.view =
      [{ cache := some { maxSize := some 7 } }] := by
    decide +kernel
  have hsize : (Layer.lastValue? ((site.discovery {}).layers site.view) .maxSize : Option Nat) =
      some 7 := by
    rw [hlayers]
    rfl
  have hflaw : (Layer.stack (simulationLayers site {} plan)).flaw? = none := by
    rw [simulationLayers, hlayers]
    decide +kernel
  have hmaxSize : (Layer.stack (simulationLayers site {} plan)).filled.maxSize = 5 := by
    rw [simulationLayers, hlayers]
    rfl
  have hresolve := Layer.resolve_eq_ok_iff.2 ⟨hflaw, rfl⟩
  refine ⟨hsize, _, hresolve, hmaxSize, ?_⟩
  refine ((perform_simulate site {} plan ?_).2 ?_).2.2 _ hresolve
  · intro hnone
    cases hsize.symm.trans hnone
  · intro path hpath
    cases hpath

/-- The plan's `--max-size 5` does not override a `max_size = 0` in the project file. -/
theorem run_simulate_noRoom :
    let site := projectSite "[cache]\nmax_size = 0\n"
    let plan : Plan := { maxSize := some 5 }
    Request.ofWords none ["simulate", "--max-size", "5"] =
        .ok { options := { plan }, task := .simulate plan } ∧
      (∃ r, (Layer.stack (simulationLayers site { plan } plan)).resolve = .ok r ∧ r.maxSize = 5) ∧
      run none ["simulate", "--max-size", "5"] site = (.failed (.configuration .noRoom), site) := by
  intro site plan
  have hwords : Request.ofWords none ["simulate", "--max-size", "5"] =
      .ok { options := { plan }, task := .simulate plan } := by decide +kernel
  have hload : ∃ loaded, (site.discovery { plan }).load site.view = .ok loaded ∧
      loaded.layer = { cache := some { maxSize := some 0 } } := by
    refine ⟨_, Discovery.load_ok (fun path h => by cases h), ?_⟩
    decide +kernel
  have hlayers : (site.discovery { plan }).layers site.view =
      [{ cache := some { maxSize := some 0 } }] := by
    decide +kernel
  refine ⟨hwords, ⟨_, Layer.resolve_eq_ok_iff.2 ⟨?_, rfl⟩, ?_⟩, ?_⟩
  · rw [simulationLayers, hlayers]
    decide +kernel
  · rw [simulationLayers, hlayers]
    rfl
  · obtain ⟨loaded, hloaded, hlayer⟩ := hload
    have houtcome := perform_eq plan hloaded
    rw [hlayer] at houtcome
    rw [run, hwords]
    dsimp only
    rw [houtcome]
    rfl

end Command

end SessionCache
