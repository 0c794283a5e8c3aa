/-
The types of plain scalars: a word for a truth value or for nothing, an
integer in base ten, two, eight, sixteen or sixty, a floating-point
number with a point, a day or a moment, and a text for all else. Two of
the words have a meaning of their own and are no scalars.
-/
import Unformat.Configuration.Basic

namespace Unformat.Yaml

/-- The words for true. -/
def trueWords : List String :=
  ["yes", "Yes", "YES", "true", "True", "TRUE", "on", "On", "ON"]

/-- The words for false. -/
def falseWords : List String :=
  ["no", "No", "NO", "false", "False", "FALSE", "off", "Off", "OFF"]

/-- The words for nothing. -/
def nullWords : List String :=
  ["", "~", "null", "Null", "NULL"]

/-- The word for a default value. -/
def defaultWord : List Char :=
  ['=']

/-- The word for merging. -/
def mergingWord : List Char :=
  ['<', '<']

-- ============================================================ numbers

/-- A text without underscores. -/
def dropUnderscores (cs : List Char) : List Char :=
  cs.filter (· ≠ '_')

/-- Whether a text is not empty and holds only such characters. -/
def consistsOf (p : Char → Bool) (cs : List Char) : Bool :=
  !cs.isEmpty && cs.all p

/-- A digit, or an underscore between digits. -/
def isSpacedDigit (c : Char) : Bool :=
  c.isDigit || c = '_'

/-- The parts of a text between colons. -/
def colonParts (cs : List Char) : List (List Char) :=
  cs.splitOnP (· = ':')

/-- Whether a text is a number below sixty in one or two digits. -/
def isSixtieth (cs : List Char) : Bool :=
  match cs with
  | [c] => c.isDigit
  | [c, d] => '0' ≤ c && c ≤ '5' && d.isDigit
  | _ => false

/-- The magnitude of an unsigned integer in any of the bases. -/
def readMagnitude? (cs : List Char) : Option Nat :=
  match cs with
  | ['0'] => some 0
  | '0' :: 'b' :: ds =>
      if consistsOf (fun c => c = '0' || c = '1' || c = '_') ds then
        some (Nat.ofDigitChars 2 (dropUnderscores ds) 0)
      else none
  | '0' :: 'x' :: ds =>
      if consistsOf (fun c => (hexDigit? c).isSome || c = '_') ds then
        readHexFrom? 0 (dropUnderscores ds)
      else none
  | '0' :: ds =>
      if consistsOf (fun c => ('0' ≤ c && c ≤ '7') || c = '_') ds then
        some (Nat.ofDigitChars 8 (dropUnderscores ds) 0)
      else none
  | d :: _ =>
      match colonParts cs with
      | first :: more =>
          if d.isDigit && first.all isSpacedDigit && more.all isSixtieth then
            some ((first :: more).foldl (fun n p => 60 * n + digitsValue (dropUnderscores p)) 0)
          else none
      | [] => none
  | [] => none

/-- An integer with an optional sign. -/
def readInt? (cs : List Char) : Option Int :=
  let (negative, unsigned) := takeSign cs
  (readMagnitude? unsigned).map (signed negative)

/-- Whether a text is empty or an exponent with its sign. -/
def isExponent (cs : List Char) : Bool :=
  match cs with
  | [] => true
  | e :: s :: ds => (e = 'e' || e = 'E') && (s = '+' || s = '-') && consistsOf Char.isDigit ds
  | _ => false

/-- Whether a text is a number with a point: digits before it and
perhaps a sign, or else digits behind it. -/
def isPointed (cs : List Char) : Bool :=
  let unsigned := (takeSign cs).2
  let whole := unsigned.takeWhile isSpacedDigit
  match unsigned.dropWhile isSpacedDigit with
  | '.' :: rest =>
      let fraction := rest.takeWhile isSpacedDigit
      isExponent (rest.dropWhile isSpacedDigit) &&
        (if whole.isEmpty then unsigned.length = cs.length && fraction.head?.any Char.isDigit
        else whole.head?.any Char.isDigit)
  | _ => false

/-- Whether a text is a number in base sixty with a point. -/
def isPointedSixtieths (cs : List Char) : Bool :=
  let unsigned := (takeSign cs).2
  let front := unsigned.takeWhile (· ≠ '.')
  match unsigned.dropWhile (· ≠ '.') with
  | '.' :: fraction =>
      match colonParts front with
      | first :: more =>
          first.head?.any Char.isDigit && first.all isSpacedDigit && !more.isEmpty
            && more.all isSixtieth && fraction.all isSpacedDigit
      | [] => false
  | _ => false

/-- The sum of the places of a number in base sixty, from the last one
up, on top of `sum`; every product and every sum is rounded. -/
def sumPlaces : (worth : Nat) → (sum : Binary64) → List Binary64 → Binary64
  | _, sum, [] => sum
  | worth, sum, place :: more =>
      let unit := (Binary64.ofInt? worth).getD (Binary64.infinity false)
      sumPlaces (60 * worth) (sum.plus (place.times unit)) more

/-- The number with such a text in base sixty. -/
def pointedSixtieths? (cs : List Char) : Option Binary64 := do
  let (negative, unsigned) := takeSign (dropUnderscores cs)
  let places ← (colonParts unsigned).mapM Binary64.read?
  let sum := sumPlaces 1 (Binary64.clamped false 0) places.reverse
  return ⟨negative, sum.magnitude⟩

/-- A floating-point number; infinities and what is no number have words
of their own behind a point. -/
def readFloat? (cs : List Char) : Option Binary64 :=
  let (negative, unsigned) := takeSign cs
  let word := String.ofList unsigned
  if [".inf", ".Inf", ".INF"].contains word then some (Binary64.infinity negative)
  else if unsigned.length = cs.length ∧ [".nan", ".NaN", ".NAN"].contains word then
    some Binary64.notNumber
  else if isPointed cs then Binary64.read? (dropUnderscores cs)
  else if isPointedSixtieths cs then pointedSixtieths? cs
  else none

-- ==================================================== days and moments

/-- A number of one to `most` digits at the front of a text, how many
they are, and what follows them. -/
def takeNumber (most : Nat) (cs : List Char) : Option ((Nat × Nat) × List Char) :=
  let ds := (cs.take most).takeWhile Char.isDigit
  if ds = [] then none else some ((digitsValue ds, ds.length), cs.drop ds.length)

/-- What follows a character at the front of a text. -/
def takeMark? (mark : Char) : List Char → Option (List Char)
  | c :: cs => if c = mark then some cs else none
  | [] => none

/-- A number of two digits behind a colon. -/
def takeMinutes? (cs : List Char) : Option (Nat × List Char) := do
  let ((n, width), rest) ← takeNumber 2 (← takeMark? ':' cs)
  if width = 2 then some (n, rest) else none

/-- The digits behind a point as microseconds, if a point stands in
front; digits beyond the sixth count nothing. -/
def takeMicros : List Char → Nat × List Char
  | '.' :: cs =>
      let (ds, rest) := Decimal.spanDigits cs
      (digitsValue ((ds ++ List.replicate 6 '0').take 6), rest)
  | cs => (0, cs)

/-- How far a clock is ahead, in minutes, if a text says so. -/
def readAhead? (cs : List Char) : Option (Option Int) :=
  match cs.dropWhile (· = ' ') with
  | [] => some none
  | ['Z'] => some (some 0)
  | sign :: ahead =>
      if sign = '+' ∨ sign = '-' then do
        let ((hours, _), rest) ← takeNumber 2 ahead
        let (minutes, rest) ← if rest = [] then some (0, []) else takeMinutes? rest
        if rest = [] then some (some (signed (sign = '-') (60 * hours + minutes))) else none
      else none

/-- The reading of a clock, behind the mark that sets it off from the
day. -/
def readClock? (cs : List Char) : Option Clock := do
  let ((hour, _), rest) ← takeNumber 2 cs
  let (minute, rest) ← takeMinutes? rest
  let (second, rest) ← takeMinutes? rest
  let (micro, rest) := takeMicros rest
  let ahead ← readAhead? rest
  return { hour, minute, second, micro, ahead }

/-- A day, with two digits each for the month and the day, or a moment,
with one or two; it need not be one of the calendar. -/
def readTimestamp? (cs : List Char) : Option Timestamp := do
  let ((year, width), rest) ← takeNumber 4 cs
  if width ≠ 4 then none
  let ((month, monthWidth), rest) ← takeNumber 2 (← takeMark? '-' rest)
  let ((day, dayWidth), rest) ← takeNumber 2 (← takeMark? '-' rest)
  match rest with
  | [] => if monthWidth = 2 ∧ dayWidth = 2 then some ⟨year, month, day, none⟩ else none
  | c :: time =>
      if c = 'T' ∨ c = 't' then (readClock? time).map fun k => ⟨year, month, day, some k⟩
      else if c = ' ' then
        (readClock? (time.dropWhile (· = ' '))).map fun k => ⟨year, month, day, some k⟩
      else none

-- ============================================================== words

/-- The scalar that a plain text stands for. The words for a default value
and for merging stand for none. What is written like a day or a moment
has to be one of the calendar. -/
def plainScalar (cs : List Char) : Except DocumentFault Scalar :=
  let word := String.ofList cs
  if trueWords.contains word then .ok (.bool true)
  else if falseWords.contains word then .ok (.bool false)
  else if nullWords.contains word then .ok .null
  else if cs = defaultWord ∨ cs = mergingWord then .error .malformed
  else
    match readFloat? cs, readInt? cs, readTimestamp? cs with
    | some x, _, _ => .ok (.float x)
    | none, some n, _ => .ok (.int n)
    | none, none, some t => if t.isValid then .ok (.timestamp t) else .error .noSuchDay
    | none, none, none => .ok (.str (.ofChars cs))

end Unformat.Yaml
