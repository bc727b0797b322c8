import DiceNotation.Number.Read
import DiceNotation.Text.Lowercase
import DiceNotation.Yaml.Node

/-!
# Data of a document

The data that the nodes of a document denote. All nodes are checked first, level by level from the
root on, so that of several errors the one nearest to the root is reported; then the data are built.
-/

namespace DiceNotation.Yaml

/-! ## Scalars -/

/-- The text of a number without underscores, and whether it has a minus sign, which is removed like a
plus sign. There has to be a number. -/
def numberText (text : List Char) : Except Error (Bool × List Char) :=
  match text.filter (· != '_') with
  | [] => .error .noNumber
  | '-' :: cs => .ok (true, cs)
  | '+' :: cs => .ok (false, cs)
  | cs => .ok (false, cs)

/-- An integer in a base. Only in base ten is the number of its digits limited. -/
def integerIn (base : Nat) (cs : List Char) : Except Error Int :=
  let digits := (cs.filter isDigit).length
  match Number.readInt? base cs with
  | some v => if base = 10 && digits > maxDigits then .error (.longInteger digits) else .ok v
  | none => .error (.badInteger base (String.ofList cs))

/-- The number that digits to base sixty denote. -/
def sexagesimal (digits : List Int) : Int :=
  digits.foldl (fun v d => 60 * v + d) 0

/-- An integer: in base two, sixteen or eight by its beginning, to base sixty with colons, and else in
base ten. -/
def integer (text : List Char) : Except Error Int := do
  let (negative, cs) ← numberText text
  let v ←
    match cs with
    | [] => throw .noNumber
    | ['0'] => pure 0
    | '0' :: 'b' :: rest => integerIn 2 rest
    | '0' :: 'x' :: rest => integerIn 16 rest
    | '0' :: _ => integerIn 8 cs
    | _ =>
      if cs.contains ':' then do
        let digits ← (splitColons cs).mapM (integerIn 10)
        pure (sexagesimal digits)
      else integerIn 10 cs
  return if negative then -v else v

/-- A decimal fraction. -/
def fractionOf (cs : List Char) : Except Error Float :=
  match Number.readFloat? cs with
  | some x => .ok x
  | none => .error (.badFraction (String.ofList cs))

/-- The sum of digits to base sixty, the last of which is the first in the list. -/
def addSixtieths : Float → Float → List Float → Float
  | value, _, [] => value
  | value, unit, d :: ds => addSixtieths (value + d * unit) (unit * 60) ds

/-- A floating-point number: a decimal fraction, a number to base sixty, or what is infinite or no
number. -/
def fraction (text : List Char) : Except Error Float := do
  let (negative, cs) ← numberText (Text.lower (String.ofList text)).toList
  let x ←
    if cs = ".inf".toList then pure (Number.infinity false)
    else if cs = ".nan".toList then return Float.ofBits 0x7FF8000000000000
    else if cs.contains ':' then do
      let digits ← (splitColons cs).mapM fractionOf
      pure (addSixtieths 0 1 digits.reverse)
    else fractionOf cs
  return if negative then -x else x

/-- A truth value. -/
def truth (text : String) : Except Error Bool :=
  let name := Text.lower text
  -- A tag can ask for a truth value where the look of the text does not.
  if ["yes", "true", "on"].contains name then .ok true
  else if ["no", "false", "off"].contains name then .ok false
  else .error (.badTruth name)

/-- Whether a year has a day more than others. -/
def isLeap (year : Nat) : Bool :=
  year % 4 == 0 && (year % 100 != 0 || year % 400 == 0)

/-- The number of days of a month. -/
def daysIn (year month : Nat) : Nat :=
  if month = 2 then if isLeap year then 29 else 28
  else if [4, 6, 9, 11].contains month then 30
  else 31

/-- What is wrong with a date. -/
def dateError? (year month day : Nat) : Option ClockError :=
  if year = 0 then some (.year year)
  else if month = 0 || month > 12 then some .month
  else if day = 0 || day > daysIn year month then some .day
  else none

/-- What is wrong with a time of day. -/
def timeError? (t : ClockParts) : Option ClockError :=
  if t.hour > 23 then some .hour
  else if t.minute > 59 then some .minute
  else if t.second > 59 then some .second
  else none

/-- The first six digits of a fraction of a second, filled up with zeros. -/
def microseconds (fraction : List Char) : Nat :=
  let digits := fraction.take 6
  (digits ++ List.replicate (6 - digits.length) '0').foldl
    (fun n c => 10 * n + (c.toNat - 48)) 0

/-- A date, or an instant. -/
def date (text : String) : Except Error Data :=
  match takeDate text.toList with
  | none => .error .badDate
  | some d =>
    match d.time with
    | none =>
      match dateError? d.year d.month d.day with
      | some e => .error (.badClock e)
      | none => .ok (.date d.year d.month d.day)
    | some t =>
      let far? := t.offset.filter fun s => s ≤ -86400 || 86400 ≤ s
      match (far?.map ClockError.offset).or ((dateError? d.year d.month d.day).or (timeError? t)) with
      | some e => .error (.badClock e)
      | none => .ok (.instant ⟨d.year, d.month, d.day, t.hour, t.minute, t.second,
          microseconds t.fraction, t.offset.map Offset.mk⟩)

/-- The value of a digit to base sixty-four. -/
def digit64? (c : Char) : Option Nat :=
  let n := c.toNat
  if 'A' ≤ c && c ≤ 'Z' then some (n - 65)
  else if 'a' ≤ c && c ≤ 'z' then some (n - 71)
  else if isDigit c then some (n + 4)
  else if c = '+' then some 62
  else if c = '/' then some 63
  else none

/-- Bytes from digits to base sixty-four. Four digits make three bytes, and equals signs stand for the
missing ones at the end; other characters are passed over. `digits` is the number of digits of the last
four that are there, `pads` that of the equals signs behind them, and `value` holds the bits that are
no byte yet. -/
def bytes64 (digits pads value : Nat) (bytes : List UInt8) : List Char → Option (List UInt8)
  | [] => if digits = 0 then some bytes.reverse else none
  | c :: cs =>
    if c = '=' then
      if digits ≥ 2 && digits + pads + 1 ≥ 4 then some bytes.reverse
      else bytes64 digits (pads + 1) value bytes cs
    else
      match digit64? c with
      | none => bytes64 digits pads value bytes cs
      | some d =>
        let value := 64 * value + d
        match digits with
        | 0 => bytes64 1 0 d bytes cs
        | 1 => bytes64 2 0 (value % 16) (UInt8.ofNat (value / 16) :: bytes) cs
        | 2 => bytes64 3 0 (value % 4) (UInt8.ofNat (value / 4) :: bytes) cs
        | _ => bytes64 0 0 0 (UInt8.ofNat value :: bytes) cs

/-- Bytes, which are written to base sixty-four in ASCII. -/
def binary (text : List Char) : Except Error Data :=
  if text.all fun c => c.toNat < 128 then
    match bytes64 0 0 0 [] text with
    | some bytes => .ok (.bytes bytes)
    | none => .error .malformed
  else .error .malformed

/-- The data of a scalar. -/
def scalarData (tag : Tag) (text : String) : Except Error Data :=
  match tag with
  | .null => .ok .null
  | .bool => return .bool (← truth text)
  | .int => return .int (← integer text.toList)
  | .float => return .float (← fraction text.toList)
  | .binary => binary text.toList
  | .timestamp => date text
  | .str => .ok (.text text)
  | _ => .error .malformed

/-! ## Nodes -/

namespace Node

/-- The kind of a node that an alias is replaced by. -/
def tag : Node → Tag
  | scalar t _ => t
  | sequence _ t _ => t
  | mapping _ t _ => t
  | aliasOf _ => .unknown

end Node

namespace Document

/-- The node that an alias stands for. Other nodes stand for themselves. -/
def resolve (d : Document) (n : Node) : Node :=
  match n with
  | .aliasOf name => (d.anchors.lookup name).getD Node.empty
  | n => n

/-- A bound on the length of a path through the collections of a document that enters none twice. -/
def bound (d : Document) : Nat :=
  d.count + 2

/-- The number of a collection. -/
def number? : Node → Option Nat
  | .sequence n _ _ => some n
  | .mapping n _ _ => some n
  | _ => none

/-- Whether a node is one of some collections. -/
def isIn (n : Node) (numbers : List Nat) : Bool :=
  match number? n with
  | some k => numbers.contains k
  | none => false

/-- The text of a node that has to be a scalar, by at most `n` steps. A mapping can have one as its
default value. -/
def scalarText? (d : Document) : Nat → Node → Option String
  | 0, _ => none
  | n + 1, node =>
    match d.resolve node with
    | .scalar _ text => some text
    | .mapping _ _ entries =>
      match entries.find? fun e => (d.resolve e.1).tag = .value with
      | some e => d.scalarText? n e.2
      | none => none
    | _ => none

/-- The entries of a mapping with those of the mappings that it merges before them, by at most `n` steps.
A mapping can merge one mapping or a sequence of them, of which the last one comes first. `inside` are
the mappings that are being merged, which merge nothing again. -/
def mergedEntries (d : Document) : Nat → List Nat → Node → Except Error (List (Node × Node))
  | 0, _, _ => .error .malformed
  | n + 1, inside, node =>
    match node with
    | .mapping k _ entries => do
      let isMerge (e : Node × Node) : Bool := (d.resolve e.1).tag = .merge
      let own := entries.filter fun e => !isMerge e
      -- A mapping that merges itself has only its own entries to give.
      if inside.contains k then return own
      let merged ← (entries.filter isMerge).mapM fun e =>
        match d.resolve e.2 with
        | .sequence _ _ items => do
          let parts ← items.mapM fun item => d.mergedEntries n (k :: inside) (d.resolve item)
          return parts.reverse.flatten
        | m => d.mergedEntries n (k :: inside) m
      return merged.flatten ++ own
    | _ => throw .malformed

/-- The entries of a mapping with all that it merges. -/
def entriesOf (d : Document) (n : Node) : Except Error (List (Node × Node)) :=
  d.mergedEntries d.bound [] n

/-- The data of a key, which has to be a scalar. The default value of a mapping is a text as a key. -/
def keyData (d : Document) (n : Node) : Except Error Data :=
  match d.resolve n with
  | .scalar .value text => .ok (.text text)
  | .scalar t text => scalarData t text
  | _ => .error .malformed

/-- Checks a node by itself, and gives it if its contents are yet to be checked. -/
def checkNode (d : Document) (n : Node) : Except Error (Option Node) :=
  let n := d.resolve n
  if [.seq, .map, .set, .orderedMap, .pairs].contains n.tag then .ok (some n)
  else
    match n with
    | .scalar t text => (scalarData t text).map fun _ => none
    | n =>
      match d.scalarText? d.bound n with
      | some text => (scalarData n.tag text).map fun _ => none
      | none => .error .malformed

/-- Checks the nodes in a collection in their order, and gives those whose contents are yet to be
checked. -/
def contents (d : Document) (n : Node) : Except Error (List Node) :=
  match n.tag, n with
  | .seq, .sequence _ _ items => items.filterMapM d.checkNode
  | .map, .mapping _ _ _ => values
  | .set, .mapping _ _ _ => values
  | .orderedMap, .sequence _ _ items => items.flatMapM single
  | .pairs, .sequence _ _ items => items.flatMapM single
  | _, _ => .error .malformed
where
  values : Except Error (List Node) := do
    (← d.entriesOf n).filterMapM fun e => do
      let _ ← d.keyData e.1
      d.checkNode e.2
  single (item : Node) : Except Error (List Node) :=
    match d.resolve item with
    | .mapping _ _ [(k, v)] => [k, v].filterMapM d.checkNode
    | _ => .error .malformed

/-- Checks collections in a queue, each of which adds the collections in it to the queue unless they
have been there. -/
def checkQueue (d : Document) : Nat → List Nat → List Node → Except Error Unit
  | 0, _, _ => .ok ()
  | _ + 1, _, [] => .ok ()
  | n + 1, seen, node :: queue => do
    let items ← d.contents node
    let (seen, more) := items.foldl (fun (seen, more) c =>
      if isIn c seen then (seen, more) else ((number? c).toList ++ seen, more ++ [c])) (seen, [])
    checkQueue d n seen (queue ++ more)

/-- Checks all nodes of a document. -/
def check (d : Document) : Except Error Unit := do
  match ← d.checkNode d.root with
  | none => return ()
  | some root => d.checkQueue d.bound (number? root).toList [root]

/-- The data of a scalar that has been checked. -/
def scalarOr (t : Tag) (text : String) : Data :=
  (scalarData t text).toOption.getD .null

/-- The entries of a mapping that has been checked as those of a dictionary, with what builds the data
of a value. -/
def dictEntries (d : Document) (value : Node → Data) (n : Node) : List (Data × Data) :=
  Data.entriesOf (((d.entriesOf n).toOption.getD []).map fun (k, v) =>
    ((d.keyData k).toOption.getD .null, value v))

/-- The only entry of a mapping that has been checked. -/
def pairData (d : Document) (value : Node → Data) (n : Node) : Data :=
  match d.resolve n with
  | .mapping _ _ [(k, v)] => .tuple [value k, value v]
  | _ => .null

/-- Builds the data of a node that has been checked, by at most `n` steps from one node to another.
`inside` are the numbers of the collections around it. -/
def build (d : Document) : Nat → List Nat → Node → Data
  | 0, _, _ => .null
  | n + 1, inside, node =>
    match d.resolve node with
    | .scalar t text => scalarOr t text
    | .sequence k t items =>
      if inside.contains k then .again true
      else if t = .seq then .list (items.map (d.build n (k :: inside)))
      else .list (items.map (d.pairData (d.build n (k :: inside))))
    | .mapping k t entries =>
      if inside.contains k then .again false
      else
        let node := Node.mapping k t entries
        if t = .map then .dict (d.dictEntries (d.build n (k :: inside)) node)
        else if t = .set then .set ((d.dictEntries (d.build n (k :: inside)) node).map (·.1))
        else ((d.scalarText? d.bound node).map (scalarOr t)).getD .null
    | .aliasOf _ => .null

/-- The data of a document. What stands in a dictionary at the root is built as if it stood alone, and
shows the dictionary in full where it is inside of itself. -/
def data (d : Document) : Except Error Data := do
  d.check
  let root := d.resolve d.root
  match root with
  | .mapping _ .map _ => return .dict (d.dictEntries (d.build d.bound []) root)
  | _ => return d.build d.bound [] root

end Document

/-- A text with newlines for carriage returns, alone or before a newline. -/
def unifyBreaks : List Char → List Char
  | '\r' :: '\n' :: cs => '\n' :: unifyBreaks cs
  | '\r' :: cs => '\n' :: unifyBreaks cs
  | c :: cs => c :: unifyBreaks cs
  | [] => []

/-- The data that a text holds. A text without a document holds nothing. -/
def load (s : String) : Except Error Data := do
  match ← Document.ofTokens? (← tokens (unifyBreaks s.toList)) with
  | none => return .null
  | some d => d.data

end DiceNotation.Yaml
