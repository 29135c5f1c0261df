import SessionCache.Files.Path
import SessionCache.Text.Characters
import SessionCache.Text.Hex

/-!
# Names of databases

A database is named by the path of its file, or by a locator. That starts with `file:`, may name the
host after two slashes, gives the path with percent signs before the hex digits of bytes, and may go
on with a question mark and options. A number sign ends it: `file:old%20sessions.db?mode=ro#first`.

* `DatabaseName.ofText?` reads a name.
* `DatabaseName.isUnfiled` tells which databases are in no file.
-/

namespace SessionCache

/-- The option `mode` of a locator: what the database is opened for. -/
inductive Access where
  | read
  | write
  /-- `rwc`: writing, and the file is made if there is none. -/
  | create
  /-- `memory`: there is no file. -/
  | memory
  deriving DecidableEq, Repr

/-- How much an access may do to the file; `Access.admits` compares it. -/
def Access.rank : Access → Nat
  | .read => 1
  | .write => 2
  | .create | .memory => 3

/-- Whether the option `new` may follow `old`: it may not be of a higher `rank`, except where one of
them is `.memory`. -/
def Access.admits (old new : Access) : Bool :=
  old = .memory || new = .memory || new.rank ≤ old.rank

/-- The access that a value of `mode` stands for. -/
def Access.ofName? : String → Option Access
  | "ro" => some .read
  | "rw" => some .write
  | "rwc" => some .create
  | "memory" => some .memory
  | _ => none

/-- The option `vfs` of a locator: how the file is locked. -/
inductive Locking where
  | shared
  /-- Locks too weak for a write-ahead log. -/
  | plain
  /-- `memdb`: there is no file. -/
  | memory
  deriving DecidableEq, Repr

/-- The locking that a value of `vfs` stands for. -/
def Locking.ofName? : String → Option Locking
  | "unix" | "unix-excl" => some .shared
  | "unix-none" | "unix-dotfile" => some .plain
  | "memdb" => some .memory
  | _ => none

/-- What a text that names a database says: the path, and how it is to be opened. -/
structure DatabaseName where
  path : String
  access : Access := .create
  locking : Locking := .shared
  /-- The option `immutable`: the file is taken for one that nobody changes. -/
  frozen : Bool := false
  deriving DecidableEq, Repr

namespace DatabaseName

/-- The path `:memory:` of a database in memory. -/
def memoryPath : String := ":memory:"

/-- Whether the database has no file. -/
def isUnfiled (n : DatabaseName) : Bool :=
  n.path = "" || n.path = memoryPath || n.access = .memory || n.locking = .memory

/-- Whether the database cannot be written. -/
def isReadOnly (n : DatabaseName) : Bool := n.access = .read || n.frozen && !n.isUnfiled

/-- Whether a write-ahead log may be kept beside the file. -/
def keepsLog (n : DatabaseName) : Bool := n.locking = .shared && !n.frozen

/-! ## Locators -/

/-- The bytes of a piece of a locator, with `%xx` read as a byte. A zero byte ends the piece. -/
def decode : List Char → List UInt8
  | [] => []
  | '%' :: a :: b :: rest =>
    match Text.Hex.value? a, Text.Hex.value? b with
    | some high, some low =>
      if high = 0 ∧ low = 0 then []
      else UInt8.ofNat (Text.Hex.toNat [high, low]) :: decode rest
    | _, _ => 37 :: decode (a :: b :: rest)
  | c :: rest => String.utf8EncodeChar c ++ decode rest

/-- The text that `decode` gives; a piece whose bytes are no UTF-8 stays as it was written. -/
def pieceText (cs : List Char) : String :=
  (String.fromUTF8? ⟨(decode cs).toArray⟩).getD (String.ofList cs)

/-- The characters before the first `mark`, and those after it, if it is there. -/
def splitAt (mark : Char) (cs : List Char) : List Char × Option (List Char) :=
  match cs.dropWhile (· ≠ mark) with
  | [] => (cs, none)
  | _ :: rest => (cs.takeWhile (· ≠ mark), some rest)

/-- The pieces between the characters `mark`; `acc` is the reversed beginning of the first. -/
def pieces (mark : Char) (acc : List Char) : List Char → List (List Char)
  | [] => [acc.reverse]
  | c :: rest =>
    if c = mark then acc.reverse :: pieces mark [] rest else pieces mark (c :: acc) rest

/-- The name and the value of an option `name=value`; without `=`, the value is empty. -/
def optionOf (cs : List Char) : String × String :=
  let (name, value) := splitAt '=' cs
  (pieceText name, pieceText (value.getD []))

/-- What follows `//host`, if the host is empty or `localhost`. -/
def withoutHost? (cs : List Char) : Option (List Char) :=
  match cs with
  | '/' :: '/' :: rest =>
    let host := rest.takeWhile (· ≠ '/')
    if host = [] ∨ host = "localhost".toList then some (rest.dropWhile (· ≠ '/')) else none
  | _ => some cs

/-- Whether a value is `on`, `yes`, `true` in any case, or begins with a number that is not zero. -/
def isYes (value : String) : Bool :=
  match value.toList.takeWhile Char.isDigit with
  | [] => ["on", "yes", "true"].contains (Text.lowered value)
  | digits =>
    let n := digits.foldl (fun n d => n * 10 + (d.toNat - 48)) 0
    n < 2147483648 && n % 256 != 0

/-- Takes an option into account; a `mode` or `cache` with an unknown value makes the locator
unreadable. -/
def withOption? (n : DatabaseName) (option : String × String) : Option DatabaseName :=
  match option with
  | ("mode", value) => do
    let access ← Access.ofName? value
    if n.access.admits access then some { n with access } else none
  | ("cache", value) => if value = "shared" ∨ value = "private" then some n else none
  | _ => some n

/-- Whether the first option `name` has a value that `isYes`. -/
def isChosen (options : List (String × String)) (name : String) : Bool :=
  (options.lookup name).any isYes

/-- The locking of the last option `vfs`, `.shared` without one. -/
def lockingOf? (options : List (String × String)) : Option Locking :=
  match options.reverse.lookup "vfs" with
  | none => some .shared
  | some name => Locking.ofName? name

/-- Reads a locator after `file:`, as path, query and fragment. -/
def ofLocator? (cs : List Char) : Option DatabaseName := do
  let (path, query) := splitAt '?' ((← withoutHost? cs).takeWhile (· ≠ '#'))
  let options := ((query.map (pieces '&' [])).getD []).map optionOf
  let options := options.filter fun option => option.1 ≠ ""
  let locking ← lockingOf? options
  let locking := if isChosen options "nolock" && locking = .shared then .plain else locking
  options.foldlM withOption?
    { path := pieceText path, locking, frozen := isChosen options "immutable" }

/-- The prefix `file:` of a locator. -/
def scheme : List Char := "file:".toList

/-- Reads the text that names a database: a locator after `file:`, else a path. -/
def ofText? (text : String) : Option DatabaseName :=
  let cs := text.toList
  if cs.contains '\x00' then none
  else if scheme.isPrefixOf cs then ofLocator? (cs.drop scheme.length)
  else some { path := text }

end DatabaseName

end SessionCache
