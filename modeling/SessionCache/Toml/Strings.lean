import SessionCache.Text.Hex

/-!
# TOML strings and lines

The smallest pieces of a TOML document: blanks, ends of lines, comments and the four kinds of
strings. A reader takes the characters that are left and gives what it read with what is left
after it.

* Basic strings have escapes, literal strings have none; both come in a form that may run over
  several lines, in which every end of line counts as a line feed.
-/

namespace SessionCache.Toml

open Text

/-- A reader: what it read, and the characters after it. -/
abbrev Reader (α : Type) := List Char → Option (α × List Char)

/-- The blanks inside of a line. -/
def isBlank (c : Char) : Bool := c = ' ' || c = '\t'

/-- Drops blanks. -/
def skipBlank (cs : List Char) : List Char := cs.dropWhile isBlank

/-- Drops an end of line. -/
def newLine? : List Char → Option (List Char)
  | '\n' :: rest => some rest
  | '\r' :: '\n' :: rest => some rest
  | _ => none

/-- Whether a character may stand in a comment or a string: no control character but the tab. -/
def isPlain (c : Char) : Bool := c = '\t' || (0x20 ≤ c.toNat && c.toNat != 0x7F)

/-- Drops a comment, if one starts here. -/
def skipComment : List Char → List Char
  | '#' :: rest => rest.dropWhile isPlain
  | cs => cs

/-- Drops what may stand at the end of a line, and the end of the line or of the document. -/
def lineEnd? (cs : List Char) : Option (List Char) :=
  match skipComment (skipBlank cs) with
  | [] => some []
  | cs => newLine? cs

/-- Drops blanks, comments and ends of lines, looking at so many lines at most. -/
def skipLines : Nat → List Char → List Char
  | 0, cs => cs
  | lines + 1, cs =>
    let cs := skipComment (skipBlank cs)
    match newLine? cs with
    | some rest => skipLines lines rest
    | none => cs

/-! ## Escapes -/

/-- The number that hex digits spell, `count` of them. -/
def hexNumber (count : Nat) (acc : Nat) : Reader Nat
  | cs =>
    match count, cs with
    | 0, cs => some (acc, cs)
    | _ + 1, [] => none
    | n + 1, c :: rest =>
      match Hex.value? c with
      | some d => hexNumber n (acc * 16 + d.val) rest
      | none => none

/-- A character given by its number, which has to be one. -/
def numbered (count : Nat) : Reader Char := fun cs => do
  let (n, rest) ← hexNumber count 0 cs
  if n < 0xD800 ∨ (0xE000 ≤ n ∧ n < 0x110000) then some (Char.ofNat n, rest) else none

/-- An escape, after its backslash. -/
def escape? : Reader Char
  | 'b' :: rest => some ('\x08', rest)
  | 't' :: rest => some ('\t', rest)
  | 'n' :: rest => some ('\n', rest)
  | 'f' :: rest => some ('\x0c', rest)
  | 'r' :: rest => some ('\r', rest)
  | '"' :: rest => some ('"', rest)
  | '\\' :: rest => some ('\\', rest)
  | 'u' :: rest => numbered 4 rest
  | 'U' :: rest => numbered 8 rest
  | _ => none

/-! ## Strings on one line -/

/-- The rest of a basic string; `acc` holds what was read, the last character first. -/
def basicRest (fuel : Nat) (acc : List Char) (cs : List Char) : Option (String × List Char) :=
  match fuel, cs with
  | 0, _ => none
  | _, [] => none
  | _ + 1, '"' :: rest => some (String.ofList acc.reverse, rest)
  | fuel + 1, '\\' :: rest =>
    match escape? rest with
    | some (c, rest) => basicRest fuel (c :: acc) rest
    | none => none
  | fuel + 1, c :: rest => if isPlain c then basicRest fuel (c :: acc) rest else none

/-- The rest of a literal string. -/
def literalRest (acc : List Char) : Reader String
  | [] => none
  | '\'' :: rest => some (String.ofList acc.reverse, rest)
  | c :: rest => if isPlain c then literalRest (c :: acc) rest else none

/-! ## Strings over several lines -/

/-- How many of a character come first. -/
def countLeading (quote : Char) (cs : List Char) : Nat := (cs.takeWhile (· = quote)).length

/-- What a run of quotes means inside of a string over several lines: fewer than three of them
belong to the string; of three to five, the last three end it. -/
inductive QuoteRun where
  | content (quotes : Nat)
  | closing (quotes : Nat)
  | tooMany

/-- What a run of `n` quotes means. -/
def QuoteRun.ofLength (n : Nat) : QuoteRun :=
  if n < 3 then .content n else if n ≤ 5 then .closing (n - 3) else .tooMany

/-- Drops blanks and ends of lines, looking at so many lines at most. -/
def skipBreaks : Nat → List Char → List Char
  | 0, cs => cs
  | lines + 1, cs =>
    let cs := skipBlank cs
    match newLine? cs with
    | some rest => skipBreaks lines rest
    | none => cs

/-- What a backslash at the end of a line swallows: that end of line, and all blanks and ends of
lines after it. -/
def continuation? (cs : List Char) : Option (List Char) :=
  (newLine? (skipBlank cs)).map fun rest => skipBreaks (rest.length + 1) rest

/-- The rest of a string over several lines, between quotes of one kind. -/
def longRest (quote : Char) (escapes : Bool) :
    Nat → List Char → List Char → Option (String × List Char)
  | 0, _, _ => none
  | _, _, [] => none
  | fuel + 1, acc, c :: rest =>
    if c = quote then
      let after := (c :: rest).drop (countLeading quote (c :: rest))
      match QuoteRun.ofLength (countLeading quote (c :: rest)) with
      | .content n => longRest quote escapes fuel (List.replicate n quote ++ acc) after
      | .closing n => some (String.ofList (List.replicate n quote ++ acc).reverse, after)
      | .tooMany => none
    else if c = '\\' ∧ escapes then
      match continuation? rest with
      | some rest => longRest quote escapes fuel acc rest
      | none =>
        match escape? rest with
        | some (c, rest) => longRest quote escapes fuel (c :: acc) rest
        | none => none
    else
      match newLine? (c :: rest) with
      | some rest => longRest quote escapes fuel ('\n' :: acc) rest
      | none => if isPlain c then longRest quote escapes fuel (c :: acc) rest else none

/-- A string over several lines, after its opening quotes; an end of line right after these does
not count. -/
def long? (quote : Char) (escapes : Bool) : Reader String := fun cs =>
  longRest quote escapes (cs.length + 1) [] ((newLine? cs).getD cs)

/-- A string of any kind. -/
def string? : Reader String
  | '"' :: '"' :: '"' :: rest => long? '"' true rest
  | '"' :: rest => basicRest (rest.length + 1) [] rest
  | '\'' :: '\'' :: '\'' :: rest => long? '\'' false rest
  | '\'' :: rest => literalRest [] rest
  | _ => none

end SessionCache.Toml
