import SessionCache.Toml.Numbers
import SessionCache.Toml.Table

/-!
# TOML documents

A document is a sequence of statements, one a line: headers and named values. Values may be arrays
and tables in braces; arrays may run over several lines.

* `Document.read?` reads a document, which may start with a byte order mark.
-/

namespace SessionCache.Toml

/-- The limit on the depth of arrays and inline tables, and on the parts of a dotted name. -/
def nestingLimit : Nat := 80

/-! ## Names -/

/-- `c` may stand in a bare key. -/
def isBare (c : Char) : Bool :=
  ('a' ≤ c && c ≤ 'z') || ('A' ≤ c && c ≤ 'Z') || ('0' ≤ c && c ≤ '9') || c = '-' || c = '_'

/-- A bare or quoted key. -/
def part? : Reader String
  | '"' :: rest => basicRest (rest.length + 1) [] rest
  | '\'' :: rest => literalRest [] rest
  | cs =>
    let bare := cs.takeWhile isBare
    if bare.isEmpty then none else some (String.ofList bare, cs.dropWhile isBare)

/-- A dotted key of at most this many parts. -/
def parts? : Nat → Reader (List String)
  | 0, _ => none
  | parts + 1, cs => do
    let (first, rest) ← part? (skipBlank cs)
    match skipBlank rest with
    | '.' :: rest =>
      let (others, rest) ← parts? parts rest
      return (first :: others, rest)
    | rest => return ([first], rest)

/-- A dotted key: the parts before the last one, and the last. -/
def name? : Reader (List String × String) := fun cs => do
  let (parts, rest) ← parts? (nestingLimit - 1) cs
  let last ← parts.getLast?
  return ((parts.dropLast, last), rest)

/-! ## Values -/

mutual

/-- A value that nests at most `depth` deep. -/
def value? (fuel depth : Nat) (cs : List Char) : Option (Node × List Char) :=
  match fuel with
  | 0 => none
  | fuel + 1 =>
    match cs with
    | '"' :: _ | '\'' :: _ => (string? cs).map fun (s, rest) => (.string s, rest)
    | 't' :: 'r' :: 'u' :: 'e' :: rest => some (.boolean true, rest)
    | 'f' :: 'a' :: 'l' :: 's' :: 'e' :: rest => some (.boolean false, rest)
    | '[' :: rest =>
      match depth with
      | 0 => none
      | depth + 1 => (arrayRest? fuel depth [] rest).map fun (items, rest) => (.array items, rest)
    | '\x7b' :: rest =>
      match depth with
      | 0 => none
      | depth + 1 =>
        match skipBlank rest with
        | '\x7d' :: rest => some (.table .inline [], rest)
        | rest =>
          (inlineRest? fuel depth [] rest).map fun (entries, rest) => (.table .inline entries, rest)
    | cs =>
      match quantity? cs with
      | some (.integer n, rest) => some (.integer n, rest)
      | some (.float, rest) => some (.float, rest)
      | some (.time, rest) => some (.time, rest)
      | none => none

/-- The rest of an array; `acc` holds the items so far, the last one first. -/
def arrayRest? (fuel depth : Nat) (acc : List Node) (cs : List Char) :
    Option (List Node × List Char) :=
  match fuel with
  | 0 => none
  | fuel + 1 =>
    match skipLines (cs.length + 1) cs with
    | ']' :: rest => some (acc.reverse, rest)
    | cs =>
      match value? fuel depth cs with
      | none => none
      | some (item, rest) =>
        match skipLines (rest.length + 1) rest with
        | ',' :: rest => arrayRest? fuel depth (item :: acc) rest
        | ']' :: rest => some ((item :: acc).reverse, rest)
        | _ => none

/-- The rest of a table in braces, which has at least one more entry. -/
def inlineRest? (fuel depth : Nat) (entries : Entries) (cs : List Char) :
    Option (Entries × List Char) :=
  match fuel with
  | 0 => none
  | fuel + 1 =>
    match name? cs with
    | some ((path, name), '=' :: rest) =>
      match value? fuel depth (skipBlank rest) with
      | none => none
      | some (node, rest) =>
        match Node.add? path name node .header entries with
        | none => none
        | some entries =>
          match skipBlank rest with
          | ',' :: rest => inlineRest? fuel depth entries rest
          | '\x7d' :: rest => some (entries, rest)
          | _ => none
    | _ => none

end

/-! ## Statements -/

/-- A statement of a document, one for each line. -/
inductive Statement where
  /-- `[path.name]`. -/
  | header (path : List String) (name : String)
  /-- `[[path.name]]`. -/
  | appended (path : List String) (name : String)
  | entry (path : List String) (name : String) (node : Node)

/-- A statement and the end of its line. -/
def statement? (cs : List Char) : Option (Statement × List Char) :=
  match cs with
  | '[' :: '[' :: rest => do
    let ((path, name), rest) ← name? rest
    let ']' :: ']' :: rest := rest | none
    return (.appended path name, ← lineEnd? rest)
  | '[' :: rest => do
    let ((path, name), rest) ← name? rest
    let ']' :: rest := rest | none
    return (.header path name, ← lineEnd? rest)
  | cs => do
    let ((path, name), rest) ← name? cs
    let '=' :: rest := rest | none
    let (node, rest) ← value? (rest.length + 1) (nestingLimit - 1) (skipBlank rest)
    return (.entry path name node, ← lineEnd? rest)

/-- The statements of a document of at most this many lines. -/
def statements? : Nat → List Char → Option (List Statement)
  | 0, _ => none
  | lines + 1, cs =>
    match skipBlank cs with
    | [] => some []
    | '#' :: rest => (lineEnd? ('#' :: rest)).bind (statements? lines)
    | '\n' :: rest => statements? lines rest
    | '\r' :: '\n' :: rest => statements? lines rest
    | cs => do
      let (statement, rest) ← statement? cs
      return statement :: (← statements? lines rest)

namespace Document

/-- Adds the statements to `entries`; `current` is the path of the table that values go into. -/
def build? (current : List String) (entries : Entries) : List Statement → Option Entries
  | [] => some entries
  | .header path name :: rest => do
    build? (path ++ [name]) (← Node.open? path name entries) rest
  | .appended path name :: rest => do
    build? (path ++ [name]) (← Node.append? path name entries) rest
  | .entry path name node :: rest => do
    build? current (← Node.within? false (Node.add? path name node) current .header entries) rest

/-- Drops a byte order mark. -/
def dropMark : List Char → List Char
  | '\ufeff' :: rest => rest
  | cs => cs

/-- Reads a TOML document. -/
def read? (text : String) : Option Entries := do
  let cs := dropMark text.toList
  build? [] [] (← statements? (cs.length + 1) cs)

end Document

end SessionCache.Toml
