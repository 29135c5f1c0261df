import SessionCache.Json.Numeral
import SessionCache.Text.Hex
import SessionCache.Text.Letters

/-!
# JSON as written

A document is first read into a `Tree`, which keeps what the grammar tells apart and decides
nothing else: how deep things nest, whether a number fits, whether a name is used twice. A string
whose content is no text (bytes that are not UTF-8, half of a surrogate pair) is kept as `none`,
since it does no harm where it is never looked at.

* `Tree.parse?` reads one document, with JSON's blanks around it and nothing else.
-/

namespace SessionCache.Json

open Text

/-- A JSON document as written. -/
inductive Tree where
  | null
  | bool (b : Bool)
  | number (n : Numeral)
  | string (s : Option String)
  | array (items : List Tree)
  | object (fields : List (Option String × Tree))

namespace Tree

/-- JSON's four blanks. -/
def isBlank (l : Letter) : Bool :=
  l == some ' ' || l == some '\t' || l == some '\n' || l == some '\r'

/-- Drops blanks. -/
def skipBlank (ls : List Letter) : List Letter := ls.dropWhile isBlank

/-- Drops the given characters, if the text starts with them. -/
def word? : List Char → List Letter → Option (List Letter)
  | [], rest => some rest
  | c :: cs, some x :: rest => if x = c then word? cs rest else none
  | _ :: _, _ => none

/-! ## Strings -/

/-- The number that four hex digits spell. -/
def quad? (a b c d : Char) : Option Nat := do
  let a ← Hex.value? a
  let b ← Hex.value? b
  let c ← Hex.value? c
  let d ← Hex.value? d
  return Hex.toNat [a, b, c, d]

/-- The character of a surrogate pair. -/
def paired (high low : Nat) : Char :=
  Char.ofNat (0x10000 + (high - 0xD800) * 0x400 + (low - 0xDC00))

/-- The character of a one-letter escape. -/
def escape? : Char → Option Char
  | '"' => some '"'
  | '\\' => some '\\'
  | '/' => some '/'
  | 'b' => some '\x08'
  | 'f' => some '\x0c'
  | 'n' => some '\n'
  | 'r' => some '\r'
  | 't' => some '\t'
  | _ => none

/-- The rest of a string after its opening quote. `acc` holds the characters so far, the last one
first; `sound` tells whether all of them were characters; `high` is the first half of a surrogate
pair whose second half has to come next. -/
def stringRest (acc : List Char) (sound : Bool) (high : Option Nat) :
    List Letter → Option (Option String × List Letter)
  | [] => none
  | some '"' :: rest =>
    some (if sound && high.isNone then some (String.ofList acc.reverse) else none, rest)
  | some '\\' :: some 'u' :: some a :: some b :: some c :: some d :: rest =>
    match quad? a b c d with
    | none => none
    | some n =>
      if 0xD800 ≤ n ∧ n < 0xDC00 then stringRest acc (sound && high.isNone) (some n) rest
      else if 0xDC00 ≤ n ∧ n < 0xE000 then
        match high with
        | some h => stringRest (paired h n :: acc) sound none rest
        | none => stringRest acc false none rest
      else stringRest (Char.ofNat n :: acc) (sound && high.isNone) none rest
  | some '\\' :: some c :: rest =>
    match escape? c with
    | some c => stringRest (c :: acc) (sound && high.isNone) none rest
    | none => none
  | some '\\' :: _ => none
  | some c :: rest =>
    if c.toNat < 0x20 then none else stringRest (c :: acc) (sound && high.isNone) none rest
  | none :: rest => stringRest acc false none rest

/-! ## Numbers -/

/-- The value of a decimal digit. -/
def digit? : Letter → Option Nat
  | some c => if '0' ≤ c ∧ c ≤ '9' then some (c.toNat - 48) else none
  | none => none

/-- The decimal digits at the start, and what comes after them. -/
def digits (ls : List Letter) : List Nat × List Letter :=
  ((ls.takeWhile fun l => (digit? l).isSome).filterMap digit?,
    ls.dropWhile fun l => (digit? l).isSome)

/-- `0`, or digits that do not begin with `0`. -/
def wholePart? (ls : List Letter) : Option (List Nat × List Letter) :=
  match digits ls with
  | ([], _) => none
  | (0 :: _ :: _, _) => none
  | (ds, rest) => some (ds, rest)

/-- The digits after a point, at least one, or none without a point. -/
def fraction? (ls : List Letter) : Option (List Nat × List Letter) :=
  match ls with
  | some '.' :: rest =>
    match digits rest with
    | ([], _) => none
    | (ds, rest) => some (ds, rest)
  | _ => some ([], ls)

/-- The number with these decimal digits. -/
def spelled (ds : List Nat) : Nat := ds.foldl (fun n d => n * 10 + d) 0

/-- An exponent, if there is one. -/
def exponent? (ls : List Letter) : Option (Option Int × List Letter) :=
  match ls with
  | some e :: rest =>
    if e = 'e' ∨ e = 'E' then
      let (negative, rest) := match rest with
        | some '+' :: rest => (false, rest)
        | some '-' :: rest => (true, rest)
        | _ => (false, rest)
      match digits rest with
      | ([], _) => none
      | (ds, rest) =>
        some (some (if negative then -(spelled ds : Int) else (spelled ds : Int)), rest)
    else some (none, ls)
  | _ => some (none, ls)

/-- A number. -/
def numeral? (ls : List Letter) : Option (Numeral × List Letter) := do
  let (negative, ls) := match ls with
    | some '-' :: rest => (true, rest)
    | _ => (false, ls)
  let (whole, ls) ← wholePart? ls
  let (places, ls) ← fraction? ls
  let (exponent, ls) ← exponent? ls
  return ({ negative, whole, places, exponent }, ls)

/-! ## Values -/

mutual

/-- One value, after blanks. -/
def value? (fuel : Nat) (ls : List Letter) : Option (Tree × List Letter) :=
  match fuel with
  | 0 => none
  | fuel + 1 =>
    match skipBlank ls with
    | some 'n' :: rest => (word? ['u', 'l', 'l'] rest).map fun rest => (.null, rest)
    | some 't' :: rest => (word? ['r', 'u', 'e'] rest).map fun rest => (.bool true, rest)
    | some 'f' :: rest => (word? ['a', 'l', 's', 'e'] rest).map fun rest => (.bool false, rest)
    | some '"' :: rest =>
      (stringRest [] true none rest).map fun (s, rest) => (.string s, rest)
    | some '[' :: rest =>
      match skipBlank rest with
      | some ']' :: rest => some (.array [], rest)
      | rest => (items? fuel [] rest).map fun (items, rest) => (.array items, rest)
    | some '{' :: rest =>
      match skipBlank rest with
      | some '}' :: rest => some (.object [], rest)
      | rest => (fields? fuel [] rest).map fun (fields, rest) => (.object fields, rest)
    | rest => (numeral? rest).map fun (n, rest) => (.number n, rest)

/-- The items of an array up to its closing bracket, after those in `acc` (last one first). -/
def items? (fuel : Nat) (acc : List Tree) (ls : List Letter) :
    Option (List Tree × List Letter) :=
  match fuel with
  | 0 => none
  | fuel + 1 =>
    match value? fuel ls with
    | none => none
    | some (item, rest) =>
      match skipBlank rest with
      | some ',' :: rest => items? fuel (item :: acc) rest
      | some ']' :: rest => some ((item :: acc).reverse, rest)
      | _ => none

/-- The fields of an object up to its closing brace, after those in `acc` (last one first). -/
def fields? (fuel : Nat) (acc : List (Option String × Tree)) (ls : List Letter) :
    Option (List (Option String × Tree) × List Letter) :=
  match fuel with
  | 0 => none
  | fuel + 1 =>
    match skipBlank ls with
    | some '"' :: rest =>
      match stringRest [] true none rest with
      | none => none
      | some (name, rest) =>
        match skipBlank rest with
        | some ':' :: rest =>
          match value? fuel rest with
          | none => none
          | some (value, rest) =>
            match skipBlank rest with
            | some ',' :: rest => fields? fuel ((name, value) :: acc) rest
            | some '}' :: rest => some (((name, value) :: acc).reverse, rest)
            | _ => none
        | _ => none
    | _ => none

end

/-- Reads one document: a value with nothing but blanks around it. -/
def parse? (ls : List Letter) : Option Tree :=
  match value? (ls.length + 1) ls with
  | some (tree, rest) => if (skipBlank rest).isEmpty then some tree else none
  | none => none

end Tree

end SessionCache.Json
