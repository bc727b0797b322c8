import DiceNotation.Yaml.Error
import DiceNotation.Yaml.Place

/-!
# Scalars as they are written

The text of a scalar in each of the forms that a document can write it in: plain, in single or double
quotes, and as a block that keeps or folds its lines. Each reader gives the text and the place behind
it. In all forms but the block that keeps its lines, a line break between words counts as a space, and
further ones count as they are.
-/

namespace DiceNotation.Yaml

/-! ## Plain scalars -/

/-- Whether a plain scalar ends before `c` with `following` behind it. Inside of brackets and braces
their characters end it too. -/
def endsPlain (flow : Bool) (c following : Char) : Bool :=
  isBlankOrEnd c ||
    (c == ':' && (isBlankOrEnd following || (flow && ",[]\x7b\x7d".toList.contains following))) ||
    (flow && ",?[]\x7b\x7d".toList.contains c)

/-- The characters up to the end of a word of a plain scalar. -/
def plainRun (flow : Bool) : List Char → List Char
  | [] => []
  | c :: cs => if endsPlain flow c (cs.headD endChar) then [] else c :: plainRun flow cs

/-- Passes over spaces and line breaks, and adds the breaks to `breaks`, the latest first. There is
nothing at the mark of a document. -/
def plainBreaks : Nat → List Char → Place → Option (List Char) × Place
  | 0, breaks, p => (some breaks.reverse, p)
  | n + 1, breaks, p =>
    if p.peek == ' ' then plainBreaks n breaks p.next
    else if isBreak p.peek then
      let (b, p) := p.lineBreak
      if p.atMarker then (none, p) else plainBreaks n (b :: breaks) p
    else (some breaks.reverse, p)

/-- What a first line break and the breaks behind it count as. -/
def foldBreaks (first : Char) (breaks : List Char) : List Char :=
  if first ≠ '\n' then first :: breaks
  else if breaks.isEmpty then [' ']
  else breaks

/-- What the blanks behind a word of a plain scalar count as, whether there is a line break in them,
and the place behind them. -/
def plainGap (p : Place) : List Char × Bool × Place :=
  let (spaces, p) := p.span (· == ' ')
  if isBreak p.peek then
    let (first, p) := p.lineBreak
    if p.atMarker then ([], true, p)
    else
      match plainBreaks p.rest.length [] p with
      | (some breaks, p) => (foldBreaks first breaks, true, p)
      | (none, p) => ([], true, p)
  else (spaces, false, p)

/-- Adds words to the text of a plain scalar, the first of them behind `gap`. Outside of brackets, a
line that is indented less than `indent` ends the scalar. The flag says whether the scalar is followed
by a line break. -/
def plainWords (flow : Bool) (indent : Int) :
    Nat → List Char → List Char → Bool → Place → List Char × Bool × Place
  | 0, _, text, broken, p => (text, broken, p)
  | n + 1, gap, text, broken, p =>
    let run := if p.peek == '#' then [] else plainRun flow p.rest
    if run.isEmpty then (text, broken, p)
    else
      let text := text ++ gap ++ run
      let (gap, broken, p) := plainGap (p.skip run.length)
      -- Without a blank the word ended at a mark, and behind a blank a comment may start.
      if gap.isEmpty || p.peek == '#' || (!flow && p.column < indent) then (text, broken, p)
      else plainWords flow indent n gap text broken p

/-- A plain scalar. -/
def plainScalar (flow : Bool) (indent : Int) (p : Place) : List Char × Bool × Place :=
  plainWords flow indent p.rest.length [] [] false p

/-! ## Quoted scalars -/

/-- What an escape of one character stands for. -/
def simpleEscape? (c : Char) : Option Char :=
  match c with
  | '0' => some '\x00'
  | 'a' => some '\x07'
  | 'b' => some '\x08'
  | 't' => some '\t'
  | '\t' => some '\t'
  | 'n' => some '\n'
  | 'v' => some '\x0B'
  | 'f' => some '\x0C'
  | 'r' => some '\r'
  | 'e' => some '\x1B'
  | ' ' => some ' '
  | '"' => some '"'
  | '\\' => some '\\'
  | '/' => some '/'
  | 'N' => some '\x85'
  | '_' => some '\xA0'
  | 'L' => some '\u2028'
  | 'P' => some '\u2029'
  | _ => none

/-- How many hexadecimal digits an escape has. -/
def escapeWidth? (c : Char) : Option Nat :=
  match c with
  | 'x' => some 2
  | 'u' => some 4
  | 'U' => some 8
  | _ => none

/-- The value of a hexadecimal digit. -/
def hexValue? (c : Char) : Option Nat :=
  if isDigit c then some (c.toNat - 48)
  else if 'a' ≤ c && c ≤ 'f' then some (c.toNat - 87)
  else if 'A' ≤ c && c ≤ 'F' then some (c.toNat - 55)
  else none

/-- The value of exactly `n` hexadecimal digits. -/
def readHex (p : Place) : Nat → Nat → Except Error (Nat × Place)
  | 0, value => .ok (value, p)
  | n + 1, value =>
    match hexValue? p.peek with
    | some v => readHex p.next n (16 * value + v)
    | none => .error .malformed

/-- The line breaks from a place on, with the blanks around them passed over. No document may start or
end inside of quotes. -/
def quotedBreaks : Nat → List Char → Place → Except Error (List Char × Place)
  | 0, breaks, p => .ok (breaks.reverse, p)
  | n + 1, breaks, p =>
    if p.atMarker then .error .malformed
    else
      let p := p.skipWhile fun c => c == ' ' || c == '\t'
      if isBreak p.peek then
        let (b, p) := p.lineBreak
        quotedBreaks n (b :: breaks) p
      else .ok (breaks.reverse, p)

/-- What an escape behind a backslash stands for. An escaped line break stands for nothing. -/
def readEscape (p : Place) : Except Error (List Char × Place) :=
  match simpleEscape? p.peek, escapeWidth? p.peek with
  | some c, _ => .ok ([c], p.next)
  | none, some width => do
    let (code, p) ← readHex p.next width 0
    if code < 0x110000 then return ([Char.ofNat code], p) else throw .badCodePoint
  | none, none =>
    if isBreak p.peek then
      let p := p.lineBreak.2
      quotedBreaks (p.rest.length + 1) [] p
    else .error .malformed

/-- The blanks of a quoted scalar: as they are inside of a line, and folded where they hold a line
break. -/
def quotedBlanks (p : Place) : Except Error (List Char × Place) :=
  let (blanks, p) := p.span fun c => c == ' ' || c == '\t'
  if p.peek == endChar then .error .malformed
  else if isBreak p.peek then do
    let (first, p) := p.lineBreak
    let (breaks, p) ← quotedBreaks (p.rest.length + 1) [] p
    return (foldBreaks first breaks, p)
  else .ok (blanks, p)

/-- Adds to the text of a quoted scalar up to the closing quote, which is passed over. -/
def quotedRest (quote : Char) : Nat → List Char → Place → Except Error (List Char × Place)
  | 0, _, _ => .error .malformed
  | n + 1, text, p =>
    let double := quote == '"'
    let c := p.peek
    if c == quote then
      if !double && p.peekAt 1 == quote then quotedRest quote n (text ++ [quote]) (p.skip 2)
      else .ok (text, p.next)
    else if double && c == '\\' then do
      let (escaped, p) ← readEscape p.next
      quotedRest quote n (text ++ escaped) p
    else if isBlankOrEnd c then do
      let (blanks, p) ← quotedBlanks p
      quotedRest quote n (text ++ blanks) p
    else
      let (run, behind) := p.span fun c => !(isBlankOrEnd c || c == '\'' || c == '"' || c == '\\')
      if run.isEmpty then quotedRest quote n (text ++ [c]) p.next
      else quotedRest quote n (text ++ run) behind

/-- A quoted scalar, from its opening quote on. -/
def quotedScalar (p : Place) : Except Error (List Char × Place) :=
  quotedRest p.peek (p.rest.length + 1) [] p.next

/-! ## Block scalars -/

/-- What becomes of the line breaks at the end of a block. -/
inductive Chomping
  /-- All of them are dropped. -/
  | strip
  /-- The first one is kept. -/
  | clip
  /-- All of them are kept. -/
  | keep
  deriving DecidableEq, Repr

/-- The sign of a block's header. -/
def readChomping? (p : Place) : Option (Chomping × Place) :=
  if p.peek == '+' then some (.keep, p.next)
  else if p.peek == '-' then some (.strip, p.next)
  else none

/-- The digit of a block's header, which is not zero. -/
def readIncrement (p : Place) : Except Error (Option Nat × Place) :=
  if isDigit p.peek then
    if p.peek == '0' then .error .malformed else .ok (some (p.peek.toNat - 48), p.next)
  else .ok (none, p)

/-- The rest of a line that may only hold a comment, and the line break. -/
def ignoredLine (p : Place) : Except Error Place :=
  let p := (p.skipWhile (· == ' ')).skipComment
  if isBreakOrEnd p.peek then .ok p.next else .error .malformed

/-- The header of a block: a sign and a digit in either order, both of which may be missing, and the
rest of the line. -/
def blockHeader (p : Place) : Except Error (Chomping × Option Nat × Place) := do
  match readChomping? p with
  | some (chomping, p) =>
    let (increment, p) ← readIncrement p
    finish chomping increment p
  | none =>
    let (increment, p) ← readIncrement p
    match if increment.isSome then readChomping? p else none with
    | some (chomping, p) => finish chomping increment p
    | none => finish .clip increment p
where
  finish (chomping : Chomping) (increment : Option Nat) (p : Place) :
      Except Error (Chomping × Option Nat × Place) :=
    if isSpaceOrEnd p.peek then (ignoredLine p).map fun p => (chomping, increment, p)
    else .error .malformed

/-- The line breaks before the first line of a block, the widest indentation among them, and the place
of the first line. -/
def blockStart : Nat → List Char → Nat → Place → List Char × Nat × Place
  | 0, breaks, widest, p => (breaks.reverse, widest, p)
  | n + 1, breaks, widest, p =>
    if p.peek == ' ' then
      let p := p.next
      blockStart n breaks (max widest p.column) p
    else if isBreak p.peek then
      let (b, p) := p.lineBreak
      blockStart n (b :: breaks) widest p
    else (breaks.reverse, widest, p)

/-- Passes over spaces up to the column `indent`. -/
def blockIndent (indent : Nat) : Nat → Place → Place
  | 0, p => p
  | n + 1, p =>
    if p.column < indent && p.peek == ' ' then blockIndent indent n p.next else p

/-- The line breaks before the next line of a block, and the place of that line. -/
def blockBreaks (indent : Nat) : Nat → List Char → Place → List Char × Place
  | 0, breaks, p => (breaks.reverse, p)
  | n + 1, breaks, p =>
    let p := blockIndent indent indent p
    if isBreak p.peek then
      let (b, p) := p.lineBreak
      blockBreaks indent n (b :: breaks) p
    else (breaks.reverse, p)

/-- What the line break `first` and the breaks behind it count as between two lines of a block. A fold
needs a line on both sides that starts with no blank. -/
def joinLines (folded leading : Bool) (first : Char) (breaks : List Char) (following : Char) :
    List Char :=
  if folded && first == '\n' && leading && following ≠ ' ' && following ≠ '\t' then
    if breaks.isEmpty then [' '] else breaks
  else first :: breaks

/-- Adds lines to the text of a block, and gives the line breaks at its end besides. -/
def blockLines (folded : Bool) (indent : Nat) :
    Nat → List Char → Place → List Char × List Char × List Char × Place
  | 0, text, p => (text, [], [], p)
  | n + 1, text, p =>
    let leading := p.peek ≠ ' ' && p.peek ≠ '\t'
    let (line, p) := p.span fun c => !isBreak c
    let text := text ++ line
    -- At the end of the text the last line has no line break.
    let ended := p.peek == endChar
    let (first, p) := if ended then ('\n', p) else p.lineBreak
    let (breaks, p) := blockBreaks indent (p.rest.length + 1) [] p
    if p.column == indent && p.peek ≠ endChar then
      blockLines folded indent n (text ++ joinLines folded leading first breaks p.peek) p
    else (text, if ended then [] else [first], breaks, p)

/-- A block scalar behind its indicator. Its lines are indented as its first one is, or by as much as
its header says, and by more than `outer` in any case. -/
def blockScalar (folded : Bool) (outer : Int) (p : Place) : Except Error (List Char × Place) := do
  let (chomping, increment, p) ← blockHeader p
  let least := (max (outer + 1) 1).toNat
  let (before, indent, p) :=
    match increment with
    | none =>
      let (breaks, widest, p) := blockStart p.rest.length [] 0 p
      (breaks, max least widest, p)
    | some n =>
      let indent := least + n - 1
      let (breaks, p) := blockBreaks indent (p.rest.length + 1) [] p
      (breaks, indent, p)
  let (text, last, after, p) :=
    if p.column == indent && p.peek ≠ endChar then blockLines folded indent p.rest.length before p
    else ([], [], before, p)
  return match chomping with
    | .strip => (text, p)
    | .clip => (text ++ last, p)
    | .keep => (text ++ last ++ after, p)

end DiceNotation.Yaml
