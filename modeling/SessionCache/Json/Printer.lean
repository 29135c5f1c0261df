import SessionCache.Decimal.Shortest
import SessionCache.Json.Value

/-!
# Writing JSON

* `Value.compact`: no blanks at all.
* `Value.pretty`: one item or field a line, two blanks deeper for each level; empty arrays and
  objects on one line.

Strings escape the quote, the backslash and the control characters below the blank, and nothing
else. A double is written with the fewest digits that read back; it always has a point or an
exponent, so that it does not read as an integer, and an exponent always has a sign.
-/

namespace SessionCache.Json

open Text

/-! ## Strings -/

/-- The two hex digits of a control character. -/
def controlDigits (c : Char) : List Char := (Hex.ofNat 2 c.toNat).map Hex.digit

/-- A character inside of a string. -/
def escapeChar (c : Char) : List Char :=
  match c with
  | '"' => ['\\', '"']
  | '\\' => ['\\', '\\']
  | '\x08' => ['\\', 'b']
  | '\x0c' => ['\\', 'f']
  | '\n' => ['\\', 'n']
  | '\r' => ['\\', 'r']
  | '\t' => ['\\', 't']
  | c => if c.toNat < 0x20 then ['\\', 'u', '0', '0'] ++ controlDigits c else [c]

/-- A string with its quotes. -/
def quote (s : String) : List Char := '"' :: (s.toList.flatMap escapeChar ++ ['"'])

/-! ## Numbers -/

/-- How doubles are written: positionally while the digits end at most 16 places before the point
and start at most 5 places after it. -/
structure DoubleFormat where
  mostWhole : Int
  mostSmall : Int

/-- The format of doubles in JSON. -/
def doubleFormat : DoubleFormat := ⟨16, -5⟩

/-- An exponent, which always has a sign. -/
def exponentChars (n : Int) : List Char :=
  'e' :: (if 0 ≤ n then ['+'] else []) ++ (toString n).toList

/-- The digits of a positive decimal in a format. -/
def decimalChars (format : DoubleFormat) (d : Shortest.Decimal) : List Char :=
  let digits := (toString d.digits).toList
  let point : Int := (digits.length : Int) + d.exponent
  if 0 ≤ d.exponent ∧ point ≤ format.mostWhole then
    digits ++ List.replicate d.exponent.toNat '0' ++ ['.', '0']
  else if 0 < point ∧ point ≤ format.mostWhole then
    digits.take point.toNat ++ '.' :: digits.drop point.toNat
  else if format.mostSmall < point ∧ point ≤ 0 then
    ['0', '.'] ++ List.replicate (-point).toNat '0' ++ digits
  else
    let exponent := exponentChars (point - 1)
    match digits with
    | [d] => d :: exponent
    | d :: rest => d :: '.' :: rest ++ exponent
    | [] => exponent

/-- A double; one that is not finite has no JSON text and is written as null. -/
def doubleChars (x : Double) : List Char :=
  if ¬x.isFinite then ['n', 'u', 'l', 'l']
  else
    let magnitude :=
      if x.mantissa = 0 then ['0', '.', '0'] else decimalChars doubleFormat (Shortest.ofDouble x)
    if x.isNegative then '-' :: magnitude else magnitude

/-- A number. -/
def numberChars : Number → List Char
  | .int n => (toString n).toList
  | .double x => doubleChars x

/-! ## Values -/

/-- Pieces with commas between them. -/
def commaSeparated : List (List Char) → List Char
  | [] => []
  | [piece] => piece
  | piece :: rest => piece ++ ',' :: commaSeparated rest

namespace Value

mutual

/-- The text without blanks, as characters. -/
def compactChars : Value → List Char
  | .null => ['n', 'u', 'l', 'l']
  | .bool true => ['t', 'r', 'u', 'e']
  | .bool false => ['f', 'a', 'l', 's', 'e']
  | .number n => numberChars n
  | .string s => quote s
  | .array items => '[' :: (commaSeparated (compactItems items) ++ [']'])
  | .object fields => '{' :: (commaSeparated (compactFields fields) ++ ['}'])

/-- The texts of items. -/
def compactItems : List Value → List (List Char)
  | [] => []
  | item :: rest => compactChars item :: compactItems rest

/-- The texts of fields. -/
def compactFields : List (String × Value) → List (List Char)
  | [] => []
  | (name, value) :: rest => (quote name ++ ':' :: compactChars value) :: compactFields rest

end

/-- The text without blanks. -/
def compact (v : Value) : String := String.ofList v.compactChars

/-- A new line, indented. -/
def newLine (indent : Nat) : List Char := '\n' :: List.replicate indent ' '

/-- Lines with commas between them, each indented. -/
def lines (indent : Nat) : List (List Char) → List Char
  | [] => []
  | [piece] => newLine indent ++ piece
  | piece :: rest => newLine indent ++ piece ++ ',' :: lines indent rest

mutual

/-- The text over several lines, as characters, `indent` blanks deep. -/
def prettyChars (indent : Nat) : Value → List Char
  | .array [] => ['[', ']']
  | .array items =>
    '[' :: (lines (indent + 2) (prettyItems (indent + 2) items) ++ newLine indent ++ [']'])
  | .object [] => ['{', '}']
  | .object fields =>
    '{' :: (lines (indent + 2) (prettyFields (indent + 2) fields) ++ newLine indent ++ ['}'])
  | other => compactChars other

/-- The texts of items. -/
def prettyItems (indent : Nat) : List Value → List (List Char)
  | [] => []
  | item :: rest => prettyChars indent item :: prettyItems indent rest

/-- The texts of fields. -/
def prettyFields (indent : Nat) : List (String × Value) → List (List Char)
  | [] => []
  | (name, value) :: rest =>
    (quote name ++ ':' :: ' ' :: prettyChars indent value) :: prettyFields indent rest

end

/-- The text over several lines. -/
def pretty (v : Value) : String := String.ofList (v.prettyChars 0)

end Value

end SessionCache.Json
