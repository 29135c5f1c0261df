import SessionCache.Session.Error

/-!
# Paths

A path is kept as the text that it was given as, because it is shown that way. Where it leads is
told by its parts, which stand between slashes.

* `Path.parts` are all of them, `Path.names` those that do not mean the same directory.
* `Path.resolve` tells where a path leads if every part of it can be followed, `Path.Status` what it
  leads to.
-/

namespace SessionCache.Path

/-- The failure of a call with a name or a path that is too long. -/
def nameTooLong : IoCause := .other "File name too long (os error 36)"

/-- Whether a path starts at the root. -/
def isAbsolute (path : String) : Bool := path.toList.head? == some '/'

/-- `path` in `directory`; an absolute `path` stays. -/
def join (directory path : String) : String :=
  if isAbsolute path || directory.isEmpty then path
  else if directory.toList.getLast? == some '/' then directory ++ path
  else directory ++ "/" ++ path

/-- The stretches between slashes, the first one after `acc` in reverse. -/
def split (acc : List Char) : List Char → List (List Char)
  | [] => [acc.reverse]
  | '/' :: rest => acc.reverse :: split [] rest
  | c :: rest => split (c :: acc) rest

/-- The components of `path`, with an empty one after a slash at the end. -/
def parts (path : String) : List String := (split [] path.toList).map String.ofList

/-- Without the empty components at the end. -/
def withoutSlashes (parts : List String) : List String :=
  (parts.reverse.dropWhile (· = "")).reverse

/-- `.` and the empty component. -/
def isHere (part : String) : Bool := part = "" || part = "."

/-- The components without those that are `isHere`; a `.` at the front of a relative path stays. -/
def names (path : String) : List String :=
  let rest := (parts path).filter fun part => !isHere part
  if (parts path).head? = some "." then "." :: rest else rest

/-- The place at which `path` starts: the root, or the working directory. -/
def start (workingDirectory : List String) (path : String) : List String :=
  if isAbsolute path then [] else workingDirectory

/-- The place after one more component, where `..` leads up. -/
def step (place : List String) (part : String) : List String :=
  if isHere part then place
  else if part = ".." then place.dropLast
  else place ++ [part]

/-- The place of `path`, as the names from the root to it. -/
def resolve (workingDirectory : List String) (path : String) : List String :=
  (parts path).foldl step (start workingDirectory path)

/-- The places that the components of `path` lead through, latest first. -/
def visited (workingDirectory : List String) (path : String) : List (List String) :=
  (parts path).foldl (fun places part => step (places.headD []) part :: places)
    [start workingDirectory path]

/-- The limit on the bytes of a name. -/
def longestName : Nat := 255

/-- The limit on the bytes of a path. -/
def longestPath : Nat := 4095

/-- `name` has more than `longestName` bytes. -/
def isOverlong (name : String) : Bool := longestName < name.utf8ByteSize

/-- What is wrong with the text of `path`: it is empty, or too long. -/
def fault? (path : String) : Option IoCause :=
  if path.toList.contains '\x00' then some (.other "file name contained an unexpected NUL byte")
  else if path.isEmpty then some .notFound
  else if longestPath < path.utf8ByteSize then some nameTooLong
  else none

/-- The outcome of `stat` on a path. -/
inductive Status where
  /-- There is nothing. -/
  | missing
  /-- It fails with `PermissionDenied`, though something is there. -/
  | hidden
  /-- A directory, or something else that is no regular file. -/
  | irregular
  /-- A regular file. -/
  | regular
  deriving DecidableEq, Repr

end SessionCache.Path
