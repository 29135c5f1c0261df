import SessionCache.Text.Characters

/-!
# Kinds of stores

Where the records of passivated sessions are kept. Kinds are named in lower case in files; on the
command line the case of a name does not matter.
-/

namespace SessionCache

/-- The backends that a configuration can name. -/
inductive StoreKind where
  | memory
  | file
  | sqlite
  deriving DecidableEq, Repr

namespace StoreKind

/-- The name of a `StoreKind`. -/
def name : StoreKind → String
  | .memory => "memory"
  | .file => "file"
  | .sqlite => "sqlite"

/-- Every kind. -/
def all : List StoreKind := [.memory, .file, .sqlite]

/-- Whether `store.path` has to be set. -/
def needsPath : StoreKind → Bool
  | .memory => false
  | .file | .sqlite => true

/-- Inverse of `name`. -/
def ofName? (name : String) : Option StoreKind := all.find? (·.name = name)

/-- Inverse of `name`, in any case. -/
def ofText? (text : String) : Option StoreKind := ofName? (Text.lowered text)

end StoreKind

end SessionCache
