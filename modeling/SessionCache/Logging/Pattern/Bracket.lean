import SessionCache.Logging.Pattern.Atom

/-!
# Brackets in patterns

Brackets hold characters, ranges of characters, names of kinds of characters between colons and
brackets of their own, and may have operators between those.

* `Mode.brackets?` reads brackets.
-/

namespace SessionCache.Pattern

/-- The names that kinds of characters have inside of brackets. -/
def kindNames : List String :=
  ["alnum", "alpha", "ascii", "blank", "cntrl", "digit", "graph", "lower", "print", "punct", "space",
    "upper", "word", "xdigit"]

/-- Reads the name of a kind after its bracket, and whether it is negated. What is no such name is
left to be read as brackets. -/
def kindName? : List Char → Option (Bool × List Char)
  | ':' :: rest =>
    let (negated, rest) := match rest with
      | '^' :: rest => (true, rest)
      | rest => (false, rest)
    match rest.dropWhile (· ≠ ':') with
    | ':' :: ']' :: after =>
      if kindNames.contains (String.ofList (rest.takeWhile (· ≠ ':'))) then some (negated, after)
      else none
    | _ => none
  | _ => none

/-- Where inside of brackets one is. -/
inductive Spot where
  /-- Right after the opening; a closing bracket stands for itself here. -/
  | first
  /-- After hyphens that stand for themselves at the start. -/
  | hyphens
  | inside
  deriving DecidableEq, Repr

namespace Mode

/-- The rest after an opening bracket and the sign of negation. -/
def opened? (m : Mode) (cs : List Char) : Option (List Char) :=
  match m.skip cs with
  | '^' :: rest => if m.unicode then some rest else none
  | rest => some rest

/-- Reads a character, or a range of them. A hyphen before the closing bracket or before another
hyphen makes no range. -/
def range? (m : Mode) (cs : List Char) : Option (List Char) := do
  let (first, rest) ← m.member? cs
  let rest := m.skip rest
  let single := if first.isMember m then some rest else none
  match rest with
  | '-' :: after =>
    let next := m.peek after
    if next = some ']' ∨ next = some '-' then single
    else
      let (last, rest) ← m.member? (m.skip after)
      if first.isMember m && last.isMember m && (← first.code?) ≤ (← last.code?) then some rest
      else none
  | _ => single

/-- Reads brackets after what opens them, which is inside of `depth` others. -/
def bracketsRest? (m : Mode) (depth : Nat) (spot : Spot) (cs : List Char) :
    Nat → Option (List Char)
  | 0 => none
  | fuel + 1 =>
    match m.skip cs with
    | [] => none
    | '[' :: rest =>
      match kindName? rest with
      | some (negated, rest) =>
        if m.folds || negated && !m.unicode then none else m.bracketsRest? depth .inside rest fuel
      | none => (m.opened? rest).bind fun rest => m.bracketsRest? (depth + 1) .first rest fuel
    | c :: rest =>
      if c = '-' ∧ spot ≠ .inside then
        if m.folds then none else m.bracketsRest? depth .hyphens rest fuel
      else if c = ']' ∧ spot = .first then
        if m.folds then none else m.bracketsRest? depth .inside rest fuel
      else if c = ']' then
        if depth = 0 then some rest else m.bracketsRest? (depth - 1) .inside rest fuel
      else if (c = '&' ∨ c = '-' ∨ c = '~') ∧ rest.head? = some c then
        m.bracketsRest? depth .inside rest.tail fuel
      else (m.range? (c :: rest)).bind fun rest => m.bracketsRest? depth .inside rest fuel

/-- Reads brackets after the first of them. -/
def brackets? (m : Mode) (cs : List Char) : Option (List Char) :=
  (m.opened? cs).bind fun rest => m.bracketsRest? 0 .first rest (cs.length + 1)

end Mode

end SessionCache.Pattern
