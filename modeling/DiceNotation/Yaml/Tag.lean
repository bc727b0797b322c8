import DiceNotation.Data
import DiceNotation.Yaml.Place

/-!
# Tags

What kind of value a node denotes. A node says so by a tag, and a plain scalar without one by its look:
the names of truth values and of nothing, numbers in several bases, and dates look like what they are,
and all else is text.
-/

namespace DiceNotation.Yaml

/-- The beginning of the tags of the common kinds. -/
def tagBase : String := "tag:yaml.org,2002:"

/-- The kind of a node. -/
inductive Tag
  | null
  | bool
  | int
  | float
  | binary
  | timestamp
  | orderedMap
  | pairs
  | set
  | str
  | seq
  | map
  /-- The entries of other mappings are taken over. -/
  | merge
  /-- The default value of a mapping. -/
  | value
  /-- A kind that denotes no data. -/
  | unknown
  deriving DecidableEq, Repr

/-- The kinds that have a name. -/
def Tag.names : List (String × Tag) :=
  [("null", .null), ("bool", .bool), ("int", .int), ("float", .float), ("binary", .binary),
    ("timestamp", .timestamp), ("omap", .orderedMap), ("pairs", .pairs), ("set", .set),
    ("str", .str), ("seq", .seq), ("map", .map), ("merge", .merge), ("value", .value)]

/-- The kind of a whole tag. -/
def Tag.ofText (s : String) : Tag :=
  ((names.find? fun e => tagBase ++ e.1 == s).map (·.2)).getD .unknown

/-! ## The look of plain scalars -/

/-- The names of truth values. -/
def truthNames : List String :=
  ["yes", "Yes", "YES", "no", "No", "NO", "true", "True", "TRUE", "false", "False", "FALSE",
    "on", "On", "ON", "off", "Off", "OFF"]

/-- The names of nothing. -/
def nullNames : List String :=
  ["", "~", "null", "Null", "NULL"]

/-- A digit or an underscore. -/
def isDigitMark (c : Char) : Bool :=
  isDigit c || c == '_'

/-- A text without its sign, where it has one. -/
def dropSign : List Char → List Char
  | '+' :: cs => cs
  | '-' :: cs => cs
  | cs => cs

/-- A text that is not empty and all of whose characters have a property. -/
def someAll (which : Char → Bool) (cs : List Char) : Bool :=
  !cs.isEmpty && cs.all which

/-- The parts of a text between colons. -/
def splitColons (cs : List Char) : List (List Char) :=
  cs.foldr (fun c parts =>
    if c = ':' then [] :: parts
    else match parts with
      | part :: parts => (c :: part) :: parts
      | [] => [[c]]) [[]]

/-- A number from 0 to 59, with one digit or two. -/
def isSixtieth : List Char → Bool
  | [d] => isDigit d
  | [t, d] => '0' ≤ t && t ≤ '5' && isDigit d
  | _ => false

/-- Digits, the first of which may be bound to be more than zero, with underscores. -/
def isDigits (nonzero : Bool) : List Char → Bool
  | [] => false
  | c :: cs => isDigit c && !(nonzero && c == '0') && cs.all isDigitMark

/-- Numbers between colons, all but the first of which are below sixty. -/
def isSexagesimal (nonzero : Bool) (cs : List Char) : Bool :=
  match splitColons cs with
  | first :: part :: parts => isDigits nonzero first && (part :: parts).all isSixtieth
  | _ => false

/-- An integer in base two, eight, ten or sixteen, or with colons between its digits to base sixty. -/
def looksInteger (cs : List Char) : Bool :=
  let cs := dropSign cs
  match cs with
  | ['0'] => true
  | '0' :: 'b' :: rest => someAll (fun c => c == '0' || c == '1' || c == '_') rest
  | '0' :: 'x' :: rest =>
    someAll (fun c => isDigitMark c || ('a' ≤ c && c ≤ 'f') || ('A' ≤ c && c ≤ 'F')) rest
  | '0' :: rest => someAll (fun c => ('0' ≤ c && c ≤ '7') || c == '_') rest
  | cs => isDigits true cs || isSexagesimal true cs

/-- An exponent with its sign, or nothing. -/
def isExponent : List Char → Bool
  | [] => true
  | e :: sign :: digits =>
    (e == 'e' || e == 'E') && (sign == '+' || sign == '-') && someAll isDigit digits
  | _ => false

/-- Digits behind a point, and an exponent. -/
def isFraction (cs : List Char) : Bool :=
  isExponent (cs.dropWhile isDigitMark)

/-- A decimal fraction with its point, a number to base sixty with one, or one of the names of what is
infinite or no number. -/
def looksFraction (cs : List Char) : Bool :=
  let unsigned := dropSign cs
  let whole := unsigned.takeWhile (· != '.')
  match unsigned.dropWhile (· != '.') with
  | '.' :: behind =>
    if whole.isEmpty then
      (match cs with
        | '.' :: d :: rest => isDigit d && isFraction rest
        | _ => false) ||
      [".inf", ".Inf", ".INF"].any (fun name => name.toList == unsigned) ||
      [".nan", ".NaN", ".NAN"].any (fun name => name.toList == cs)
    else
      (isDigits false whole && isFraction behind) ||
        (isSexagesimal false whole && behind.all isDigitMark)
  | _ => false

/-! ## Dates -/

/-- Between `least` and `most` digits as a number, and what is behind them. -/
def takeNumber (least most : Nat) (cs : List Char) : Option (Nat × List Char) :=
  let digits := (cs.take most).takeWhile isDigit
  if digits.length < least then none
  else some (digits.foldl (fun n c => 10 * n + (c.toNat - 48)) 0, cs.drop digits.length)

/-- What is behind the character `c`. -/
def takeChar (c : Char) : List Char → Option (List Char)
  | [] => none
  | d :: cs => if d = c then some cs else none

/-- A time of day in its parts, as they are written. -/
structure ClockParts where
  /-- The hour. -/
  hour : Nat
  /-- The minute. -/
  minute : Nat
  /-- The second, without its fraction. -/
  second : Nat
  /-- The digits behind the point of the seconds. -/
  fraction : List Char
  /-- The offset from the universal time in seconds, where there is one. -/
  offset : Option Int
  deriving DecidableEq, Repr

/-- A date in its parts, with the time behind it, where there is one. -/
structure DateParts where
  /-- The year. -/
  year : Nat
  /-- The month. -/
  month : Nat
  /-- The day. -/
  day : Nat
  /-- The time of day, where there is one. -/
  time : Option ClockParts
  /-- Whether the month and the day have two digits. -/
  twoDigits : Bool
  deriving DecidableEq, Repr

/-- A blank inside of a line. -/
def isGap (c : Char) : Bool :=
  c == ' ' || c == '\t'

/-- An offset from the universal time at the end of a text, or nothing. -/
def takeOffset (cs : List Char) : Option (Option Int) :=
  match cs, cs.dropWhile isGap with
  | [], _ => some none
  | _, ['Z'] => some (some 0)
  | _, sign :: cs => do
    if sign ≠ '+' ∧ sign ≠ '-' then none
    let (hours, cs) ← takeNumber 1 2 cs
    let minutes ← match cs with
      | [] => some 0
      | ':' :: cs => do
        let (minutes, cs) ← takeNumber 2 2 cs
        if cs.isEmpty then some minutes else none
      | _ => none
    let seconds : Int := 3600 * hours + 60 * minutes
    return some (if sign = '-' then -seconds else seconds)
  | _, [] => none

/-- The digits behind a point, where there is one. -/
def takeFraction (cs : List Char) : List Char × List Char :=
  match cs with
  | '.' :: rest => (rest.takeWhile isDigit, rest.dropWhile isDigit)
  | cs => ([], cs)

/-- A time of day. -/
def takeClock (cs : List Char) : Option ClockParts := do
  let (hour, cs) ← takeNumber 1 2 cs
  let cs ← takeChar ':' cs
  let (minute, cs) ← takeNumber 2 2 cs
  let cs ← takeChar ':' cs
  let (second, cs) ← takeNumber 2 2 cs
  let (fraction, cs) := takeFraction cs
  let offset ← takeOffset cs
  return ⟨hour, minute, second, fraction, offset⟩

/-- A date, alone or with a time behind the letter T or blanks. -/
def takeDate (cs : List Char) : Option DateParts := do
  let (year, cs) ← takeNumber 4 4 cs
  let cs ← takeChar '-' cs
  let (month, behindMonth) ← takeNumber 1 2 cs
  let monthDigits := cs.length - behindMonth.length
  let cs ← takeChar '-' behindMonth
  let (day, behindDay) ← takeNumber 1 2 cs
  let twoDigits := monthDigits = 2 && cs.length - behindDay.length = 2
  match behindDay with
  | [] => return ⟨year, month, day, none, twoDigits⟩
  | c :: rest =>
    let time ←
      if c = 'T' || c = 't' then takeClock rest
      else if isGap c then takeClock (rest.dropWhile isGap)
      else none
    return ⟨year, month, day, some time, twoDigits⟩

/-- A date with two digits for the month and the day, or one with a time. -/
def looksDate (cs : List Char) : Bool :=
  match takeDate cs with
  | some d => d.twoDigits || d.time.isSome
  | none => false

/-- The kind of a plain scalar without a tag. -/
def Tag.ofPlain (s : String) : Tag :=
  let cs := s.toList
  if truthNames.contains s then .bool
  else if looksFraction cs then .float
  else if looksInteger cs then .int
  else if s = "<<" then .merge
  else if nullNames.contains s then .null
  else if looksDate cs then .timestamp
  else if s = "=" then .value
  else if ["!", "&", "*"].contains s then .unknown
  else .str

end DiceNotation.Yaml
