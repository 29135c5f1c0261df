import SessionCache.Text.Hex

/-!
# Writing TOML strings

A string is written in the plainest form that can hold it: in quotes on one line, in apostrophes
on one line, or in either over several lines. What no form can hold as it is goes between quotes,
with escapes. A tab never decides the form; between quotes it is escaped all the same.

* `Written.form` chooses, `Written.string` writes.
-/

namespace SessionCache.Toml.Written

open Text

/-- Characters that need an escape, wherever they stand: control characters but for the end of line
and the tab. -/
def isControl (c : Char) : Bool := c.toNat < 0x20 && c != '\n' && c != '\t' || c.toNat == 0x7F

/-- The length of the longest run of a character. `run` is the length of the one that is going on. -/
def longestRun (quote : Char) (run longest : Nat) : List Char → Nat
  | [] => max run longest
  | c :: rest =>
    if c = quote then longestRun quote (run + 1) longest rest
    else longestRun quote 0 (max run longest) rest

/-- What a string is written in. -/
inductive Form where
  | quotes
  | apostrophes
  | longQuotes
  | longApostrophes
  deriving DecidableEq, Repr

/-- The plainest form that can hold a string; quotes, if none can hold it as it is. -/
def form (cs : List Char) : Form :=
  let plain := !cs.any isControl
  let onOneLine := !cs.contains '\n'
  if plain && onOneLine && !cs.contains '\\' && !cs.contains '"' then .quotes
  else if plain && onOneLine && !cs.contains '\'' then .apostrophes
  else if plain && !cs.contains '\\' && longestRun '"' 0 0 cs ≤ 2 then .longQuotes
  else if plain && longestRun '\'' 0 0 cs ≤ 2 then .longApostrophes
  else if onOneLine then .quotes
  else .longQuotes

/-- The escape that a character has between quotes of either kind. -/
def escape? (c : Char) : Option (List Char) :=
  match c with
  | '\x08' => some ['\\', 'b']
  | '\t' => some ['\\', 't']
  | '\x0c' => some ['\\', 'f']
  | '\r' => some ['\\', 'r']
  | '\\' => some ['\\', '\\']
  | c =>
    if isControl c then some (['\\', 'u', '0', '0'] ++ (Hex.ofNat 2 c.toNat).map Hex.upperDigit)
    else none

/-- A character on one line. -/
def escapeShort (c : Char) : List Char :=
  match c with
  | '\n' => ['\\', 'n']
  | '"' => ['\\', '"']
  | c => (escape? c).getD [c]

/-- Characters over several lines: of quotes in a row, each third one gets an escape. -/
def escapeLong (quotes : Nat) : List Char → List Char
  | [] => []
  | '"' :: rest =>
    if quotes = 2 then '\\' :: '"' :: escapeLong 0 rest else '"' :: escapeLong (quotes + 1) rest
  | '\n' :: rest => '\n' :: escapeLong 0 rest
  | c :: rest => (escape? c).getD [c] ++ escapeLong 0 rest

/-- The end of line after opening quotes, which is there if the string has one itself. -/
def opening (cs : List Char) : List Char := if cs.contains '\n' then ['\n'] else []

/-- Three of a character. -/
def triple (c : Char) : List Char := [c, c, c]

/-- A string with its quotes. -/
def string (s : String) : List Char :=
  let cs := s.toList
  match form cs with
  | .quotes => '"' :: cs.flatMap escapeShort ++ ['"']
  | .apostrophes => '\'' :: cs ++ ['\'']
  | .longQuotes => triple '"' ++ opening cs ++ escapeLong 0 cs ++ triple '"'
  | .longApostrophes => triple '\'' ++ opening cs ++ cs ++ triple '\''

/-- A value that a setting can have. -/
inductive Scalar where
  | natural (n : Nat)
  | boolean (b : Bool)
  | text (s : String)
  deriving DecidableEq, Repr

/-- The text of a value. -/
def Scalar.chars : Scalar → List Char
  | natural n => (toString n).toList
  | boolean b => (toString b).toList
  | text s => string s

/-- A section: its header, then a line for each field. -/
def sectionChars (name : String) (fields : List (String × Scalar)) : List Char :=
  '[' :: name.toList ++ [']', '\n'] ++
    fields.flatMap fun (field, value) =>
      field.toList ++ [' ', '=', ' '] ++ value.chars ++ ['\n']

/-- Sections with an empty line between them. -/
def sectionsChars : List (String × List (String × Scalar)) → List Char
  | [] => []
  | [(name, fields)] => sectionChars name fields
  | (name, fields) :: rest => sectionChars name fields ++ '\n' :: sectionsChars rest

end SessionCache.Toml.Written
