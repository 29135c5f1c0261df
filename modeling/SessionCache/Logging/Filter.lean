import SessionCache.Logging.Pattern.Validity
import SessionCache.Text.Characters

/-!
# Log filters

A filter is a list of directives with commas between them. A directive is a level, or a target
with or without one: `target[span{field=value}]=level`, where the part in square brackets, in it
that in braces, and in it the value may be missing. A level is a name in any case of letters, or its
number. A value is a number or a pattern. Blanks around a directive do not count, but one that gives
a target a level may not have any.

* `Filter.isValid` tells whether a text is a filter.
* `Filter.ofLevel` is the filter for a level of the log: the parts of the program at that level,
  all else from warnings on.
-/

namespace SessionCache.Filter

/-- The names of the log levels. -/
def levelNames : List String := ["off", "error", "warn", "info", "debug", "trace"]

/-- The number of decimal digits, with an optional `+`. -/
def number? (cs : List Char) : Option Nat :=
  let digits := match cs with
    | '+' :: rest => rest
    | all => all
  if digits.isEmpty || !digits.all Char.isDigit then none
  else some (digits.foldl (fun n c => n * 10 + (c.toNat - 48)) 0)

/-- The text is a level, by name or by number, or empty. -/
def isLevel (cs : List Char) : Bool :=
  match number? cs with
  | some n => n < levelNames.length
  | none => cs.isEmpty || Text.lowered (String.ofList cs) ∈ levelNames

/-! ## Fields -/

/-- The digits at the start of a text, and the rest. -/
def digits (cs : List Char) : List Char × List Char :=
  (cs.takeWhile Char.isDigit, cs.dropWhile Char.isDigit)

/-- A text without a sign at its start. -/
def unsigned : List Char → List Char
  | '+' :: rest | '-' :: rest => rest
  | cs => cs

/-- The text is empty, or `e` with an integer. -/
def isExponent : List Char → Bool
  | [] => true
  | 'e' :: rest | 'E' :: rest =>
    let (ds, after) := digits (unsigned rest)
    !ds.isEmpty && after.isEmpty
  | _ => false

/-- Whether a text is a number: with or without a sign, with digits before or after the point, and
with or without an exponent; or infinite, or none. -/
def isNumber (cs : List Char) : Bool :=
  let cs := unsigned cs
  let (whole, rest) := digits cs
  let (places, rest) := match rest with
    | '.' :: rest => digits rest
    | rest => ([], rest)
  ["inf", "infinity", "nan"].contains (Text.lowered (String.ofList cs)) ||
    !(whole.isEmpty && places.isEmpty) && isExponent rest

/-- The text is a name, perhaps with `=` and a value up to the next `=`. -/
def isField (cs : List Char) : Bool :=
  match cs.dropWhile (· ≠ '=') with
  | [] => true
  | _ :: rest =>
    let value := rest.takeWhile (· ≠ '=')
    isNumber value || Pattern.isPattern value

/-! ## Directives -/

/-- The part of a directive that is being read. -/
inductive Part where
  /-- Nothing was read. -/
  | start
  /-- In a target, or in a level without one. -/
  | name
  /-- In the name of a span, after `[`. -/
  | span
  /-- In a field of a span, after `{`, which begins at this place of the directive. -/
  | field (first : Nat)
  /-- After `}`. -/
  | fields
  /-- After `]`. -/
  | target
  /-- In a level, after `=`; `reversed` is what was read of it. -/
  | level (reversed : List Char)
  deriving DecidableEq

/-- A target may begin with `c`. -/
def startsTarget (c : Char) : Bool := c = '-' || c = ':' || c = '_' || Text.isAlphanumeric c

/-- The part after the character at `place`, if that may stand there. A field is the stretch of
`text` from its first place to this one. -/
def Part.next? (text : List Char) (place : Nat) : Part → Char → Option Part
  | .start, c => if c = '[' then some .span else if startsTarget c then some .name else none
  | .name, c => if c = '=' then some (.level []) else if c = '[' then some .span else some .name
  | .span, c =>
    if c = ']' then some .target
    else if c = '\x7b' then some (.field (place + 1))
    else some .span
  | .field first, c =>
    if c = '\x7d' then
      if first < place && isField ((text.drop first).take (place - first)) then some .fields
      else none
    else some (.field first)
  | .fields, c => if c = ']' then some .target else none
  | .target, c => if c = '=' then some (.level []) else none
  | .level reversed, c => some (.level (c :: reversed))

/-- The part at the end of a text that is read from `place` on. -/
def Part.after? (text : List Char) (place : Nat) (part : Part) : List Char → Option Part
  | [] => some part
  | c :: rest =>
    match part.next? text place c with
    | some next => next.after? text (place + 1) rest
    | none => none

/-- The text is a directive. Places count from the first character that is no blank, but the stretch
of a field is taken from the text with its blanks. -/
def isDirective (text : List Char) : Bool :=
  let trimmed := Text.trim text
  match Part.start.after? text 0 trimmed with
  | some .name | some .target => true
  | some (.level reversed) => isLevel reversed.reverse && trimmed = text
  | _ => false

/-- The stretches between commas, the first one after `acc` in reverse. -/
def directives (acc : List Char) : List Char → List (List Char)
  | [] => [acc.reverse]
  | ',' :: rest => acc.reverse :: directives [] rest
  | c :: rest => directives (c :: acc) rest

/-- Every directive that is not empty `isDirective`. -/
def isValid (filter : String) : Bool :=
  (directives [] filter.toList).all fun d => d.isEmpty || isDirective d

/-- The targets of the program. -/
def targets : List String := ["dormant", "dormant_cache", "dormant_config"]

/-- The filter that sets every target to `level`. -/
def ofLevel (level : String) : String :=
  String.join (targets.map fun target => target ++ "=" ++ level ++ ",") ++ "warn"

end SessionCache.Filter
