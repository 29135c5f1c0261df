import SessionCache.Logging.Pattern.Bracket
import SessionCache.Text.Characters

/-!
# Which texts are patterns

A pattern is a regular expression: atoms, brackets and groups, some of them repeated, with bars
between alternatives. Groups may have names, and may change the mode for what is inside of them.
Looking around and counted repetition are not known.

* `isPattern` tells which texts are patterns.
-/

namespace SessionCache.Pattern

/-- What was read of a pattern. -/
structure Reading where
  mode : Mode := {}
  /-- The modes around the groups that are open, the innermost first. -/
  outer : List Mode := []
  /-- Whether there is something that can be repeated. -/
  canRepeat : Bool := false
  /-- The names of groups so far. -/
  names : List String := []

/-- The letters that change the mode, or that do not matter here. -/
def modeLetters : List Char := ['i', 'm', 's', 'U', 'u', 'R', 'x']

/-- The mode after a letter was switched on or off. -/
def Mode.switched (m : Mode) (letter : Char) (on : Bool) : Mode :=
  match letter with
  | 'i' => { m with ignoreCase := on }
  | 'u' => { m with unicode := on }
  | 'x' => { m with spaced := on }
  | _ => m

/-- Reads letters that change the mode, each at most once, with one hyphen before those that are
switched off: the mode, and whether it is for a group alone. `off` tells whether the hyphen was
there, and `dangling` whether it was the last character. -/
def Mode.letters? (m : Mode) (off dangling : Bool) (seen : List Char) :
    List Char → Option (Mode × Bool × List Char)
  | [] => none
  | ':' :: rest => if dangling then none else some (m, true, rest)
  | ')' :: rest => if dangling || seen.isEmpty then none else some (m, false, rest)
  | '-' :: rest => if off then none else m.letters? true true seen rest
  | c :: rest =>
    if modeLetters.contains c && !seen.contains c then
      (m.switched c (!off)).letters? off false (c :: seen) rest
    else none

/-- Whether characters make a name of a group. -/
def isGroupName : List Char → Bool
  | [] => false
  | c :: rest =>
    (c = '_' || Text.isAlphabetic c) &&
      rest.all fun c => c = '_' || c = '.' || c = '[' || c = ']' || Text.isAlphanumeric c

namespace Reading

/-- Opens a group with a mode. -/
def enter (r : Reading) (mode : Mode) : Reading :=
  { r with mode, outer := r.mode :: r.outer, canRepeat := false }

/-- Opens a group that has a name. -/
def enterNamed? (r : Reading) (cs : List Char) : Option (Reading × List Char) :=
  let name := cs.takeWhile (· ≠ '>')
  match cs.dropWhile (· ≠ '>') with
  | [] => none
  | _ :: rest =>
    let text := String.ofList name
    if isGroupName name && !r.names.contains text then
      some ({ r.enter r.mode with names := text :: r.names }, rest)
    else none

/-- Goes on after an opening parenthesis. -/
def afterOpening? (r : Reading) (cs : List Char) : Option (Reading × List Char) :=
  match r.mode.skip cs with
  | '?' :: '!' :: _ | '?' :: '=' :: _ | '?' :: '<' :: '!' :: _ | '?' :: '<' :: '=' :: _ => none
  | '?' :: 'P' :: '<' :: rest | '?' :: '<' :: rest => r.enterNamed? rest
  | '?' :: rest => do
    let (mode, forGroup, rest) ← r.mode.letters? false false [] rest
    return (if forGroup then r.enter mode else { r with mode, canRepeat := false }, rest)
  | rest => some (r.enter r.mode, rest)

/-- Goes on by one piece of a pattern. -/
def next? (r : Reading) (c : Char) (rest : List Char) : Option (Reading × List Char) :=
  match c with
  | '(' => r.afterOpening? rest
  | ')' =>
    match r.outer with
    | [] => none
    | mode :: outer => some ({ r with mode, outer, canRepeat := true }, rest)
  | '|' => some ({ r with canRepeat := false }, rest)
  | '[' => (r.mode.brackets? rest).map fun rest => ({ r with canRepeat := true }, rest)
  | '?' | '*' | '+' =>
    if r.canRepeat then some (r, if rest.head? = some '?' then rest.tail else rest) else none
  | '\x7b' => none
  | c => do
    let (atom, rest) ← r.mode.atom? (c :: rest)
    if atom.isAllowed r.mode then some ({ r with canRepeat := true }, rest) else none

/-- Whether the rest of a pattern can be read. -/
def isSound (r : Reading) (cs : List Char) : Nat → Bool
  | 0 => false
  | fuel + 1 =>
    match r.mode.skip cs with
    | [] => r.outer.isEmpty
    | c :: rest =>
      match r.next? c rest with
      | some (r, rest) => r.isSound rest fuel
      | none => false

end Reading

/-- Whether a text is a pattern. -/
def isPattern (cs : List Char) : Bool := Reading.isSound {} cs (cs.length + 1)

example : isPattern "a**|b.c".toList = true := by decide +kernel
example : isPattern "*a".toList = false ∧ isPattern "(a".toList = false := by decide +kernel
example : isPattern "(?i)a".toList = false ∧ isPattern "(?i-u)a".toList = true := by
  decide +kernel
example : isPattern "[]a-c[:alpha:]&&[^x]]".toList = true := by decide +kernel

end SessionCache.Pattern
