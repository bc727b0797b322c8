import DiceNotation.Yaml.Tag

/-!
# Writing documents

Data as a document: dictionaries and lists as blocks, one entry to a line, and dictionaries in the order
of their keys where these can be compared. A text is written plainly where that reads back as the same
text, in single quotes where it does not, and in double quotes with escapes where it holds more than
ASCII or blanks that would be lost. Texts of several words are broken into lines behind column
`maxColumn`.
-/

namespace DiceNotation.Yaml

/-- The column behind which a line is broken at the next space. -/
def maxColumn : Nat := 80

/-- By how much an inner block is indented. -/
def indentStep : Nat := 2

/-- The longest text with its tag that is written as a key on one line with its value. -/
def maxSimpleKey : Nat := 128

/-! ## The page -/

/-- A document as it is being written. -/
structure Page where
  /-- The characters so far, the latest first. -/
  written : List Char := []
  /-- How many characters stand on the current line. -/
  column : Nat := 0
  /-- Whether a blank is not needed before the next word. -/
  spaced : Bool := true
  /-- Whether there is only indentation and marks on the current line. -/
  indenting : Bool := true
  deriving DecidableEq, Repr

namespace Page

/-- Writes characters on the current line. -/
def put (p : Page) (cs : List Char) : Page :=
  { p with written := cs.reverse ++ p.written, column := p.column + cs.length }

/-- Writes a mark, behind a space where one is needed. -/
def mark (p : Page) (cs : List Char) (needsSpace spaced indenting : Bool) : Page :=
  let p := p.put (if p.spaced || !needsSpace then cs else ' ' :: cs)
  { p with spaced := spaced, indenting := p.indenting && indenting }

/-- Starts a new line. -/
def newLine (p : Page) : Page :=
  { written := '\n' :: p.written, column := 0, spaced := true, indenting := true }

/-- Goes to the column `indent`, on a new line unless nothing but its indentation is written. -/
def goTo (p : Page) (indent : Nat) : Page :=
  let p :=
    if !p.indenting || p.column > indent || (p.column = indent && !p.spaced) then p.newLine else p
  if p.column < indent then
    { p.put (List.replicate (indent - p.column) ' ') with spaced := true }
  else p

end Page

/-! ## Scalars -/

/-- How a text is written. -/
inductive Style
  | plain
  | single
  | double
  deriving DecidableEq, Repr

/-- A character that can be written as it is. -/
def isWritable (c : Char) : Bool :=
  c == '\n' || (' ' ≤ c && c ≤ '~')

/-- A space or a newline. -/
def isSpaceOrNewline (c : Char) : Bool :=
  c == ' ' || c == '\n'

/-- Whether `first` is followed by `second` anywhere. -/
def hasPair (first second : Char) : List Char → Bool
  | a :: b :: cs => (a == first && b == second) || hasPair first second (b :: cs)
  | _ => false

/-- Whether a colon stands before a space, a newline or the end, or a hash sign behind a space or a
newline: in a plain scalar, these would end it. -/
def hasMark : List Char → Bool
  | [] => false
  | [c] => c == ':'
  | a :: b :: cs =>
    (a == ':' && isSpaceOrNewline b) || (isSpaceOrNewline a && b == '#') || hasMark (b :: cs)

/-- Whether a text starts with characters that mean something else there. -/
def startsWithMark (cs : List Char) : Bool :=
  "---".toList.isPrefixOf cs || "...".toList.isPrefixOf cs ||
    match cs with
    | [] => false
    | c :: rest =>
      "#,[]\x7b\x7d&*!|>'\"%@\x60".toList.contains c ||
        ("?:-".toList.contains c && (rest.isEmpty || (rest.headD ' ' |> isSpaceOrNewline)))

/-- Whether spaces at the ends or before or behind a newline, or characters that have to be escaped,
need double quotes. -/
def needsEscapes (cs : List Char) : Bool :=
  cs.any (fun c => !isWritable c) || hasPair '\n' ' ' cs || hasPair ' ' '\n' cs

/-- Whether a text outside of brackets can be written plainly, whatever it looks like. -/
def allowsPlain (cs : List Char) : Bool :=
  !needsEscapes cs && !cs.contains '\n' && cs.head? != some ' ' && cs.getLast? != some ' ' &&
    !startsWithMark cs && !hasMark cs

/-- How a text is written. In a key on one line there is no newline. -/
def styleOf (inKey : Bool) (s : String) : Style :=
  let cs := s.toList
  if Tag.ofPlain s = .str && allowsPlain cs then .plain
  else if needsEscapes cs || (inKey && cs.contains '\n') then .double
  else .single

/-- Writes the words of a plain scalar, `run` of which is read, the latest character first. A single
space is written as a new line behind the last column. -/
def plainChars (split : Bool) (indent : Nat) : List Char → List Char → Page → Page
  | run, [], p => p.put run.reverse
  | run, c :: cs, p =>
    let spaces := run.head? = some ' '
    if c = ' ' then
      if spaces then plainChars split indent (c :: run) cs p
      else plainChars split indent [c] cs (p.put run.reverse)
    else if spaces then
      if run.length = 1 && p.column > maxColumn && split then
        plainChars split indent [c] cs { p.goTo indent with spaced := false, indenting := false }
      else plainChars split indent [c] cs (p.put run.reverse)
    else plainChars split indent (c :: run) cs p

/-- Writes a plain scalar. -/
def writePlain (split : Bool) (indent : Nat) (cs : List Char) (p : Page) : Page :=
  let p := if p.spaced then p else p.put [' ']
  plainChars split indent [] cs { p with spaced := false, indenting := false }

/-- Writes newlines: the first one twice, because a single one is read as a space. -/
def writeBreaks (indent n : Nat) (p : Page) : Page :=
  ((List.replicate (n + 1) ()).foldl (fun p _ => p.newLine) p).goTo indent

/-- Writes the characters of a scalar in single quotes. `run` is the run of spaces, of newlines or of
other characters that is read, the latest first, and `start` says whether it is the first one. -/
def singleChars (split : Bool) (indent : Nat) : Bool → List Char → List Char → Page → Page
  | start, run, [], p => finish start run true p
  | start, run, c :: cs, p =>
    if c = '\'' then
      let p := (finish start run false p).put ['\'', '\'']
      singleChars split indent false [] cs p
    else
      match run with
      | [] => singleChars split indent start [c] cs p
      | r :: _ =>
        let same := if isSpaceOrNewline r then c = r else !isSpaceOrNewline c
        if same then singleChars split indent start (c :: run) cs p
        else singleChars split indent false [c] cs (finish start run false p)
where
  finish (start : Bool) (run : List Char) (last : Bool) (p : Page) : Page :=
    match run with
    | [] => p
    | ' ' :: _ =>
      if run.length = 1 && p.column > maxColumn && split && !start && !last then p.goTo indent
      else p.put run
    | '\n' :: _ => writeBreaks indent run.length p
    | _ => p.put run.reverse

/-- Writes a scalar in single quotes. -/
def writeSingle (split : Bool) (indent : Nat) (cs : List Char) (p : Page) : Page :=
  (singleChars split indent true [] cs (p.mark ['\''] true false false)).mark ['\''] false false false

/-- The last `width` hexadecimal digits of a number, in upper case. -/
def upperHex (width n : Nat) : List Char :=
  (Text.hexDigits width n).map Char.toUpper

/-- The escape of a character. -/
def escape (c : Char) : List Char :=
  let n := c.toNat
  '\\' ::
    if n = 0 then ['0']
    else if n = 0x07 then ['a']
    else if n = 0x08 then ['b']
    else if c = '\t' then ['t']
    else if c = '\n' then ['n']
    else if n = 0x0B then ['v']
    else if n = 0x0C then ['f']
    else if c = '\r' then ['r']
    else if n = 0x1B then ['e']
    else if c = '"' || c = '\\' then [c]
    else if n = 0x85 then ['N']
    else if n = 0xA0 then ['_']
    else if n = 0x2028 then ['L']
    else if n = 0x2029 then ['P']
    else if n ≤ 0xFF then 'x' :: upperHex 2 n
    else if n ≤ 0xFFFF then 'u' :: upperHex 4 n
    else 'U' :: upperHex 8 n

/-- A character that is written as it is in double quotes. -/
def isLiteral (c : Char) : Bool :=
  ' ' ≤ c && c ≤ '~' && c != '"' && c != '\\'

/-- Writes the characters of a scalar in double quotes. `run` are the literal characters that are read
and not yet written, the latest first, and `index` is the number of characters before the next one of
`total`. Behind the last column, a line is broken before a space and behind an escape: a backslash ends
it, and another one keeps a space at the start of the next line. -/
def doubleChars (split : Bool) (indent total : Nat) : Nat → List Char → List Char → Page → Page
  | _, run, [], p => p.put run.reverse
  | index, run, c :: cs, p =>
    let literal := isLiteral c
    -- An escape is written at once, behind what was read before it.
    let (run, p) := if literal then (run, p) else ([], (p.put run.reverse).put (escape c))
    let breakable := 0 < index && index + 1 < total && (c = ' ' || run.isEmpty)
    -- A line may be one column longer before it is broken behind an escape.
    let column := if literal then p.column + run.length else p.column - 1
    if breakable && column > maxColumn && split then
      let p := (p.put (run.reverse ++ ['\\'])).goTo indent
      let p := { p with spaced := false, indenting := false }
      let following := if literal then c else cs.headD endChar
      let p := if following = ' ' then p.put ['\\'] else p
      doubleChars split indent total (index + 1) (if literal then [c] else []) cs p
    else doubleChars split indent total (index + 1) (if literal then c :: run else run) cs p

/-- Writes a scalar in double quotes. -/
def writeDouble (split : Bool) (indent : Nat) (cs : List Char) (p : Page) : Page :=
  (doubleChars split indent cs.length 0 [] cs (p.mark ['"'] true false false)).mark ['"'] false false
    false

/-- Writes a scalar of the given style. A key stands on one line. -/
def writeScalar (style : Style) (inKey : Bool) (indent : Nat) (s : String) (p : Page) : Page :=
  match style with
  | .plain => writePlain (!inKey) indent s.toList p
  | .single => writeSingle (!inKey) indent s.toList p
  | .double => writeDouble (!inKey) indent s.toList p

/-- The text of a floating-point number. One with an exponent has a point too. -/
def fractionText (x : Float) : String :=
  if Number.isFinite x then
    let cs := (Number.text x).toList
    let mantissa := cs.takeWhile (· != 'e')
    if mantissa.length < cs.length && !mantissa.contains '.' then
      String.ofList (mantissa ++ ['.', '0'] ++ cs.drop mantissa.length)
    else String.ofList cs
  else if Number.isUndefined x then ".nan"
  else if Number.isNegative x then "-.inf"
  else ".inf"

/-- The text of data that are written as a scalar, and the length of the tag that it stands for. -/
def scalarText? : Data → Option (String × Nat)
  | .null => some ("null", 6)
  | .bool b => some (if b then "true" else "false", 6)
  | .int v => some (toString v, 5)
  | .float x => some (fractionText x, 7)
  | .text s => some (s, 5)
  | _ => none

/-- How a scalar is written: all but texts plainly. -/
def scalarStyle (inKey : Bool) : Data → String → Style
  | .text _, s => styleOf inKey s
  | _, _ => .plain

/-! ## Collections -/

/-- The order of two keys of one kind, if they are. -/
def compareKeys? : Data → Data → Option Bool
  | .text a, .text b => some (a ≤ b)
  | .int a, .int b => some (a ≤ b)
  | .int a, .bool b => some (a ≤ if b then 1 else 0)
  | .bool a, .int b => some ((if a then 1 else 0) ≤ b)
  | .bool a, .bool b => some (!a || b)
  | .float a, .float b => some (a ≤ b)
  | .float a, .int b => some (a ≤ Number.ofInt b)
  | .int a, .float b => some (Number.ofInt a ≤ b)
  | .float a, .bool b => some (a ≤ if b then 1 else 0)
  | .bool a, .float b => some ((if a then 1 else 0) ≤ b)
  | _, _ => none

/-- The entries of a dictionary in the order of their keys, or as they are where the keys are not all of
one kind. -/
def sortEntries (entries : List (Data × Data)) : List (Data × Data) :=
  let comparable := match entries with
    | [] => true
    | (k, _) :: rest => rest.all fun e => (compareKeys? k e.1).isSome
  if comparable then entries.mergeSort fun a b => (compareKeys? a.1 b.1).getD true else entries

/-- Whether a key is written on one line with its value. -/
def isSimpleKey (key : Data) : Bool :=
  match scalarText? key with
  | some (s, tagLength) => !s.isEmpty && !s.toList.any isBreak && s.length + tagLength < maxSimpleKey
  | none => false

mutual

/-- Writes data in a block that is indented by `indent`. `inMapping` says whether they are the value of
an entry. -/
def writeData (inMapping : Bool) (indent : Nat) (d : Data) (p : Page) : Page :=
  match d with
  | .list [] => p.mark "[]".toList true false false
  | .dict [] => p.mark "\x7b\x7d".toList true false false
  | .list items =>
    writeItems (if inMapping && !p.indenting then indent else indent + indentStep) items p
  | .dict entries => writeEntries (indent + indentStep) entries p
  | d =>
    match scalarText? d with
    | some (s, _) => writeScalar (scalarStyle false d s) false (indent + indentStep) s p
    | none => p

/-- Writes the items of a list, each behind a dash. -/
def writeItems (indent : Nat) (items : List Data) (p : Page) : Page :=
  match items with
  | [] => p
  | d :: ds =>
    let p := (p.goTo indent).mark ['-'] true false true
    writeItems indent ds (writeData false indent d p)

/-- Writes the entries of a dictionary, each key before a colon. A key that does not fit on a line has a
mark of its own. -/
def writeEntries (indent : Nat) (entries : List (Data × Data)) (p : Page) : Page :=
  match entries with
  | [] => p
  | (k, v) :: es =>
    let p := p.goTo indent
    let p :=
      if isSimpleKey k then
        let s := ((scalarText? k).map (·.1)).getD ""
        (writeScalar (scalarStyle true k s) true (indent + indentStep) s p).mark [':'] false false
          false
      else
        let p := writeData true indent k (p.mark ['?'] true false true)
        (p.goTo indent).mark [':'] true false true
    writeEntries indent es (writeData true indent v p)

end

mutual

/-- Data with all dictionaries in the order in which they are written. -/
def sorted : Data → Data
  | .list items => .list (sortedItems items)
  | .dict entries => .dict (sortEntries (sortedEntries entries))
  | d => d

/-- The items of a list with all dictionaries in order. -/
def sortedItems : List Data → List Data
  | [] => []
  | d :: ds => sorted d :: sortedItems ds

/-- The entries of a dictionary with all dictionaries in their values in order. -/
def sortedEntries : List (Data × Data) → List (Data × Data)
  | [] => []
  | (k, v) :: es => (k, sorted v) :: sortedEntries es

end

/-- A dictionary as a document. -/
def write (entries : List (Data × Data)) : String :=
  let page : Page := {}
  String.ofList ((writeEntries 0 (sortEntries (sortedEntries entries)) page).goTo 0).written.reverse

end DiceNotation.Yaml
