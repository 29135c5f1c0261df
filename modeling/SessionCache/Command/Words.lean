import SessionCache.Command.Switch

/-!
# Reading a command line

The words of a command line lead from one command to the next inner one; each command has its own
switches, and those that every command has may stand anywhere. What was read for one command is a
`Frame`.

The value of a switch is looked at when the next switch comes, or when nothing more comes, for an
outer command only after the inner ones: so the version may still be asked for after a value that
would be refused.

* `readWords` gives the frames, the outermost first, or why reading stopped.
-/

namespace SessionCache.Command

/-- The commands and subcommands. -/
inductive Branch where
  | root
  | simulate
  | store
  | listRecords
  | removeRecord
  | purgeRecords
  | config
  | showConfig
  | showSources
  deriving DecidableEq, Repr

namespace Branch

/-- The subcommands, by name. -/
def children : Branch → List (String × Branch)
  | .root => [("simulate", .simulate), ("store", .store), ("config", .config)]
  | .store => [("list", .listRecords), ("remove", .removeRecord), ("purge", .purgeRecords)]
  | .config => [("show", .showConfig), ("which", .showSources)]
  | _ => []

/-- The names that lead to the command, with hyphens between them. -/
def title : Branch → String
  | .root => "dormant"
  | .simulate => "dormant-simulate"
  | .store => "dormant-store"
  | .listRecords => "dormant-store-list"
  | .removeRecord => "dormant-store-remove"
  | .purgeRecords => "dormant-store-purge"
  | .config => "dormant-config"
  | .showConfig => "dormant-config-show"
  | .showSources => "dormant-config-which"

/-- The flags of a command. -/
def switches : Branch → List Switch
  | .simulate => Switch.everywhere ++ Switch.ofSimulation
  | .purgeRecords => Switch.everywhere ++ [.olderThan]
  | _ => Switch.everywhere

/-- Whether the command has a positional argument. -/
def takesKey : Branch → Bool
  | .removeRecord => true
  | _ => false

end Branch

/-- Why parsing stopped. -/
inductive Stop where
  | refused
  | help (branch : Branch)
  | version (branch : Branch)
  deriving DecidableEq, Repr

/-- A flag whose value comes with the next word. -/
structure Pending where
  switch : Switch
  read : String → Option Setting
  text : Option String

/-- What was parsed for one command of the line. -/
structure Frame where
  branch : Branch
  settings : List (Switch × Setting) := []
  pending : Option Pending := none
  key : Option String := none
  /-- `--` was seen: all further words are positional. -/
  literal : Bool := false

namespace Frame

/-- Adds a flag, which may occur once. -/
def add (f : Frame) (switch : Switch) (setting : Setting) : Except Stop Frame :=
  if f.settings.any (·.1 = switch) then .error .refused
  else .ok { f with settings := f.settings ++ [(switch, setting)] }

/-- Parses the value of the `Pending` flag. -/
def settle (f : Frame) : Except Stop Frame :=
  match f.pending with
  | none => .ok f
  | some p =>
    match p.text.bind p.read with
    | some setting => { f with pending := none }.add p.switch setting
    | none => .error .refused

/-- The next word is the value of a flag. -/
def isWaiting (f : Frame) : Bool := f.pending.any (·.text.isNone)

/-- Takes `word` as the positional argument. -/
def place (f : Frame) (word : String) : Except Stop Frame := do
  if f.branch.takesKey && f.key.isNone then return { ← f.settle with key := some word }
  else throw .refused

/-- Takes a flag. `attached` is a value in the same word; a flag that needs one and has none is
`Pending`. -/
def use (f : Frame) (switch : Switch) (attached : Option String) : Except Stop Frame := do
  match switch.effect, attached with
  | .value read, text =>
    let f ← f.settle
    let f := { f with pending := some ⟨switch, read, text⟩ }
    if text.isSome then f.settle else return f
  | _, some _ => throw .refused
  | .flag setting, none => (← f.settle).add switch setting
  | .help, none =>
    let f ← f.settle
    throw (.help f.branch)
  | .version, none =>
    let f ← f.settle
    throw (.version f.branch)

/-- The part before `=`, and the part after it. -/
def splitAtEquals (cs : List Char) : List Char × Option (List Char) :=
  (cs.takeWhile (· ≠ '='),
    match cs.dropWhile (· ≠ '=') with
    | _ :: value => some value
    | [] => none)

/-- Parses what follows `--`. -/
def readLong (f : Frame) (cs : List Char) : Except Stop Frame :=
  let (name, value) := splitAtEquals cs
  match f.branch.switches.find? fun switch => switch.name.toList = name with
  | some switch => f.use switch (value.map String.ofList)
  | none => .error .refused

/-- The value after the letter of a flag, in the same word. -/
def attachedValue : List Char → Option String
  | [] => none
  | '=' :: value => some (String.ofList value)
  | value => some (String.ofList value)

/-- Parses what follows `-`: letters of flags, of which the last may have a value. -/
def readShort : List Char → Frame → Except Stop Frame
  | [], f => .ok f
  | c :: rest, f =>
    match f.branch.switches.find? fun switch => switch.letter? = some c with
    | none => .error .refused
    | some switch =>
      match switch.effect with
      | .value _ => f.use switch (attachedValue rest)
      | _ => do readShort rest (← f.use switch none)

/-- Takes a word that is no flag. -/
def take (f : Frame) (word : String) : Except Stop Frame :=
  match f.pending with
  | some { switch, read, text := none } =>
    .ok { f with pending := some ⟨switch, read, some word⟩ }
  | _ => f.place word

/-- Parses a word that is no subcommand. -/
def readWord (f : Frame) (word : String) : Except Stop Frame :=
  if f.literal then f.place word
  else
    match word.toList with
    | ['-', '-'] => .ok { f with literal := true }
    | '-' :: '-' :: name => f.readLong name
    | '-' :: c :: letters => readShort (c :: letters) f
    | _ => f.take word

end Frame

/-- `help` followed by the names of subcommands. -/
def helpOn (branch : Branch) : List String → Stop
  | [] => .help branch
  | word :: rest =>
    match branch.children.lookup word with
    | some child => helpOn child rest
    | none => .refused

/-- Parses the words for the frame `f`, and for those of the subcommands. -/
def readWords (f : Frame) : List String → Except Stop (List Frame)
  | [] => do return [← f.settle]
  | word :: rest =>
    match if f.literal || f.isWaiting then none else f.branch.children.lookup word with
    | some child => do
      let inner ← readWords { branch := child } rest
      return (← f.settle) :: inner
    | none =>
      if word = "help" && !f.literal && !f.isWaiting && !f.branch.children.isEmpty then
        throw (helpOn f.branch rest)
      else do readWords (← f.readWord word) rest

end SessionCache.Command
