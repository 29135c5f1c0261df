import SessionCache.Text.Characters
import SessionCache.Text.Hex

/-!
# Single characters of patterns

An `Atom` is what one character or one escape of a pattern stands for. What is allowed depends on
the `Mode`: patterns match texts and not bytes, and there are no tables for the cases and the
kinds of characters, so that both are only known for the characters of ASCII.

* `Mode.skip` passes over what does not count in a spaced pattern.
* `Mode.escape?` reads an escape.
* `Atom.isAllowed` and `Atom.isMember` tell where an atom may stand.
-/

namespace SessionCache.Pattern

open Text

/-- How the characters of a pattern are understood. -/
structure Mode where
  /-- Whether case does not count. -/
  ignoreCase : Bool := false
  /-- Whether the pattern is about characters, not about bytes. -/
  unicode : Bool := true
  /-- Whether blanks and comments do not count. -/
  spaced : Bool := false
  deriving DecidableEq, Repr

/-- What a character or an escape stands for. -/
inductive Atom where
  | char (c : Char)
  /-- A byte, by two digits. -/
  | byte (n : Nat)
  /-- Characters of a kind, or those that are not of the kind. -/
  | kind (negated : Bool)
  /-- The start or the end of a line or of the text. -/
  | anchor
  /-- The start or the end of a word. -/
  | edge
  /-- Any character but the end of a line. -/
  | any
  deriving DecidableEq, Repr

namespace Mode

/-- Whether characters would have to be compared without regard to case, for which there is no
table. -/
def folds (m : Mode) : Bool := m.ignoreCase && m.unicode

/-- Drops blanks and comments, which go up to the end of a line. -/
def dropIgnored (inComment : Bool) : List Char → List Char
  | [] => []
  | c :: rest =>
    if inComment then dropIgnored (c ≠ '\n') rest
    else if isBlank c then dropIgnored false rest
    else if c = '#' then dropIgnored true rest
    else c :: rest

/-- Drops what does not count. -/
def skip (m : Mode) (cs : List Char) : List Char := if m.spaced then dropIgnored false cs else cs

/-- The next character that counts. Of a comment only its sign is passed over. -/
def peek (m : Mode) (cs : List Char) : Option Char :=
  if m.spaced then
    match cs.dropWhile isBlank with
    | '#' :: rest => (rest.dropWhile isBlank).head?
    | rest => rest.head?
  else cs.head?

/-- The number that so many hex digits spell after `n`. -/
def hex? (m : Mode) (n : Nat) : Nat → List Char → Option (Nat × List Char)
  | 0, cs => some (n, cs)
  | count + 1, cs =>
    match m.skip cs with
    | [] => none
    | c :: rest =>
      match Hex.value? c with
      | some d => m.hex? (n * 16 + d.val) count rest
      | none => none

/-- The character that so many hex digits spell. -/
def hexChar? (m : Mode) (count : Nat) (cs : List Char) : Option (Atom × List Char) := do
  let (n, rest) ← m.hex? 0 count cs
  if n.isValidChar then some (.char (Char.ofNat n), rest) else none

/-- Reads an escape after its backslash. Letters have a meaning or none; all other characters of
ASCII but digits stand for themselves. -/
def escape? (m : Mode) : List Char → Option (Atom × List Char)
  | [] => none
  | c :: rest =>
    match c with
    | 'x' => (m.hex? 0 2 rest).map fun (n, rest) => (.byte n, rest)
    | 'u' => m.hexChar? 4 rest
    | 'U' => m.hexChar? 8 rest
    | 'd' | 's' | 'w' => some (.kind false, rest)
    | 'D' | 'S' | 'W' => some (.kind true, rest)
    | 'A' | 'z' => some (.anchor, rest)
    | 'b' => if rest.head? = some '\x7b' then none else some (.edge, rest)
    | 'B' | '<' | '>' => some (.edge, rest)
    | 'a' => some (.char '\x07', rest)
    | 'f' => some (.char '\x0c', rest)
    | 'n' => some (.char '\n', rest)
    | 'r' => some (.char '\r', rest)
    | 't' => some (.char '\t', rest)
    | 'v' => some (.char '\x0b', rest)
    | c => if c.toNat < 128 && !c.isAlphanum then some (.char c, rest) else none

/-- Reads a character or an escape. -/
def atom? (m : Mode) : List Char → Option (Atom × List Char)
  | [] => none
  | '\\' :: rest => m.escape? rest
  | '.' :: rest => some (.any, rest)
  | '^' :: rest | '$' :: rest => some (.anchor, rest)
  | c :: rest => some (.char c, rest)

/-- Reads a character or an escape inside of brackets. -/
def member? (m : Mode) : List Char → Option (Atom × List Char)
  | [] => none
  | '\\' :: rest => m.escape? rest
  | c :: rest => some (.char c, rest)

end Mode

namespace Atom

/-- The number of a single character. -/
def code? : Atom → Option Nat
  | .char c => some c.toNat
  | .byte n => some n
  | _ => none

/-- Whether an atom may stand in a pattern, outside of brackets. -/
def isAllowed (m : Mode) : Atom → Bool
  | .char _ => !m.folds
  | .byte n => !m.folds && (m.unicode || n < 128)
  | .kind negated => !m.unicode && !negated
  | .anchor => true
  | .edge => !m.unicode
  | .any => m.unicode

/-- Whether an atom may stand inside of brackets. -/
def isMember (m : Mode) : Atom → Bool
  | .char c => !m.folds && (m.unicode || c.toNat < 128)
  | .byte n => !m.folds && (m.unicode || n < 128)
  | .kind negated => !m.unicode && !negated
  | _ => false

end Atom

end SessionCache.Pattern
