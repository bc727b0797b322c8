import DiceNotation.Number.Text
import DiceNotation.Text.Quoted

/-!
# Data

Values as a settings file can hold them: scalars of several kinds, and collections of values. Each has
a text, by which messages show it. Only where an integer in it has too many digits there is none.
-/

namespace DiceNotation

/-- The most digits of an integer that are converted, from a text or to one. -/
def maxDigits : Nat := 4300

/-- How far a local time is ahead of the universal one, in seconds. -/
structure Offset where
  /-- The seconds, which are negative in the west. -/
  seconds : Int
  deriving DecidableEq, Repr

/-- The date and the time of an instant. -/
structure Instant where
  /-- The year, from 1 on. -/
  year : Nat
  /-- The month, from 1 on. -/
  month : Nat
  /-- The day of the month, from 1 on. -/
  day : Nat
  /-- The hour of the day. -/
  hour : Nat
  /-- The minute of the hour. -/
  minute : Nat
  /-- The second of the minute. -/
  second : Nat
  /-- The millionths of the second. -/
  microsecond : Nat
  /-- The offset, where the time is not a local one of an unknown place. -/
  offset : Option Offset
  deriving DecidableEq, Repr

/-- A value. -/
inductive Data
  /-- Nothing. -/
  | null
  /-- A truth value. -/
  | bool (value : Bool)
  /-- An integer. -/
  | int (value : Int)
  /-- A floating-point number. -/
  | float (value : Float)
  /-- A text. -/
  | text (value : String)
  /-- Some bytes. -/
  | bytes (value : List UInt8)
  /-- A day. -/
  | date (year month day : Nat)
  /-- A day with a time. -/
  | instant (value : Instant)
  /-- Values that belong together. Other than a list they can be a key. -/
  | tuple (items : List Data)
  /-- A list. -/
  | list (items : List Data)
  /-- A set, in the order in which its items came. -/
  | set (items : List Data)
  /-- Keys with their values, each key once, in the order in which they came. -/
  | dict (entries : List (Data × Data))
  /-- A list or a dictionary inside of itself. -/
  | again (isList : Bool)
  deriving Inhabited

namespace Data

/-- A byte inside of quotes. -/
def escapeByte (quote : Char) (b : UInt8) : List Char :=
  let c := Char.ofNat b.toNat
  if c = quote || c = '\\' then ['\\', c]
  else if c = '\t' then ['\\', 't']
  else if c = '\n' then ['\\', 'n']
  else if c = '\r' then ['\\', 'r']
  else if 0x20 ≤ b && b < 0x7F then [c]
  else '\\' :: 'x' :: Text.hexDigits 2 b.toNat

/-- The text of bytes, quoted like a text. -/
def bytesText (bs : List UInt8) : String :=
  let quote := Text.quoteFor (bs.map fun b => Char.ofNat b.toNat)
  String.ofList ('b' :: quote :: bs.flatMap (escapeByte quote) ++ [quote])

/-- The text of a duration. A negative one is some days back and some seconds on. -/
def durationText (seconds : Int) : String :=
  let days := seconds / 86400
  let rest := seconds % 86400
  let parts := (if days = 0 then [] else ["days=" ++ toString days]) ++
    (if rest = 0 then [] else ["seconds=" ++ toString rest])
  "datetime.timedelta(" ++ (if parts = [] then "0" else ", ".intercalate parts) ++ ")"

/-- The text of an offset. -/
def offsetText (o : Offset) : String :=
  if o.seconds = 0 then "datetime.timezone.utc"
  else "datetime.timezone(" ++ durationText o.seconds ++ ")"

/-- The text of an instant, without the seconds where there are none. -/
def instantText (t : Instant) : String :=
  let fields := [t.year, t.month, t.day, t.hour, t.minute] ++
    (if t.second = 0 && t.microsecond = 0 then [] else [t.second]) ++
    (if t.microsecond = 0 then [] else [t.microsecond])
  let offset := match t.offset with
    | none => []
    | some o => ["tzinfo=" ++ offsetText o]
  "datetime.datetime(" ++ ", ".intercalate (fields.map (fun n => toString n) ++ offset) ++ ")"

mutual

/-- The text of a value. -/
def render : Data → String
  | null => "None"
  | bool true => "True"
  | bool false => "False"
  | int v => toString v
  | float v => Number.text v
  | text v => Text.quoted v
  | bytes v => bytesText v
  | date y m d => "datetime.date(" ++ ", ".intercalate ([y, m, d].map fun n => toString n) ++ ")"
  | instant v => instantText v
  | tuple [d] => "(" ++ d.render ++ ",)"
  | tuple items => "(" ++ ", ".intercalate (renderItems items) ++ ")"
  | list items => "[" ++ ", ".intercalate (renderItems items) ++ "]"
  | set [] => "set()"
  | set items => "\x7b" ++ ", ".intercalate (renderItems items) ++ "\x7d"
  | dict entries => "\x7b" ++ ", ".intercalate (renderEntries entries) ++ "\x7d"
  | again true => "[...]"
  | again false => "\x7b...\x7d"

/-- The texts of the items of a collection. -/
def renderItems : List Data → List String
  | [] => []
  | d :: ds => d.render :: renderItems ds

/-- The texts of the entries of a dictionary. -/
def renderEntries : List (Data × Data) → List String
  | [] => []
  | (k, v) :: es => (k.render ++ ": " ++ v.render) :: renderEntries es

end

mutual

/-- Whether an integer in a value has more digits than are converted. -/
def hasLong : Data → Bool
  | int v => decide (Number.tenTo maxDigits ≤ v.natAbs)
  | tuple items => anyLong items
  | list items => anyLong items
  | set items => anyLong items
  | dict entries => anyLongEntry entries
  | _ => false

/-- Whether an integer in the items of a collection has more digits than are converted. -/
def anyLong : List Data → Bool
  | [] => false
  | d :: ds => d.hasLong || anyLong ds

/-- Whether an integer in the entries of a dictionary has more digits than are converted. -/
def anyLongEntry : List (Data × Data) → Bool
  | [] => false
  | (k, v) :: es => k.hasLong || v.hasLong || anyLongEntry es

end

/-- Whether a number that may be a key has a given value. -/
def sameNumber (v : Int) : Data → Bool
  | bool b => v == if b then 1 else 0
  | int w => v == w
  | float x =>
    match Number.dyadic? x with
    | none => false
    | some d => d.equalsInt v
  | _ => false

mutual

/-- Whether two keys of a dictionary are the same. Numbers are compared by value, whatever their
kind. -/
def sameKey : Data → Data → Bool
  | null, null => true
  | text a, text b => a == b
  | bytes a, bytes b => a == b
  | date y m d, date y' m' d' => y == y' && m == m' && d == d'
  | instant a, instant b => a == b
  -- Truth values count as zero and one.
  | bool b, k => sameNumber (if b then 1 else 0) k
  | int v, k => sameNumber v k
  | float x, float y => x == y
  | float x, bool b => sameNumber (if b then 1 else 0) (float x)
  | float x, int v => sameNumber v (float x)
  | tuple ds, tuple es => sameKeys ds es
  | _, _ => false

/-- Whether the items of two tuples are the same one by one. -/
def sameKeys : List Data → List Data → Bool
  | [], [] => true
  | d :: ds, e :: es => sameKey d e && sameKeys ds es
  | _, _ => false

end

/-- Gives a key a value: in its place where it is known, and at the end where it is new. -/
def put (key value : Data) : List (Data × Data) → List (Data × Data)
  | [] => [(key, value)]
  | (k, v) :: es => if sameKey k key then (k, value) :: es else (k, v) :: put key value es

/-- The entries of a dictionary that is filled in the given order. -/
def entriesOf (pairs : List (Data × Data)) : List (Data × Data) :=
  pairs.foldl (fun es (k, v) => put k v es) []

end Data

/-! ## Messages -/

/-- Why a value cannot be shown in a message. -/
inductive FormatError
  /-- There is no value for a place in the message. -/
  | tooFew
  /-- There is no place for a value in the message. -/
  | tooMany
  /-- An integer has more digits than are converted. -/
  | longNumber
  deriving DecidableEq, Repr

/-- The message about a value that cannot be shown in one. -/
def FormatError.message : FormatError → String
  | tooFew => "not enough arguments for format string"
  | tooMany => "not all arguments converted during string formatting"
  | longNumber =>
    "Exceeds the limit (" ++ toString maxDigits ++ " digits) for integer string conversion; " ++
      "use sys.set_int_max_str_digits() to increase the limit"

end DiceNotation
