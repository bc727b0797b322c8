/-!
# Places in a document

A place is what is left of a document's text, with the line and the column that it stands at. The
end of the text is seen as the character NUL, which no document holds.
-/

namespace DiceNotation.Yaml

/-- What stands for the end of the text. -/
def endChar : Char := '\x00'

/-- A line break. Carriage returns are gone from a text before it is read. -/
def isBreak (c : Char) : Bool :=
  c == '\n' || c == '\x85' || c == '\u2028' || c == '\u2029'

/-- A line break or the end of the text. -/
def isBreakOrEnd (c : Char) : Bool :=
  c == endChar || isBreak c

/-- A space, a line break or the end of the text. -/
def isSpaceOrEnd (c : Char) : Bool :=
  c == ' ' || isBreakOrEnd c

/-- A blank of any kind, a tab included, or the end of the text. -/
def isBlankOrEnd (c : Char) : Bool :=
  c == '\t' || isSpaceOrEnd c

/-- A decimal digit. -/
def isDigit (c : Char) : Bool :=
  '0' ≤ c && c ≤ '9'

/-- A character of the names of anchors, handles and directives. -/
def isWordChar (c : Char) : Bool :=
  isDigit c || ('A' ≤ c && c ≤ 'Z') || ('a' ≤ c && c ≤ 'z') || c == '-' || c == '_'

/-- A place in a text. -/
structure Place where
  /-- What is left of the text. -/
  rest : List Char
  /-- How many characters are behind. -/
  index : Nat
  /-- How many line breaks are behind. -/
  line : Nat
  /-- How many characters of the line are behind. -/
  column : Nat
  deriving DecidableEq, Repr

namespace Place

/-- The place at the start of a text. -/
def start (cs : List Char) : Place :=
  ⟨cs, 0, 0, 0⟩

/-- The character at a place. -/
def peek (p : Place) : Char :=
  p.rest.headD endChar

/-- The character `n` places on. -/
def peekAt (p : Place) (n : Nat) : Char :=
  p.rest.getD n endChar

/-- The place behind the current character. A byte order mark takes no column. -/
def next (p : Place) : Place :=
  match p.rest with
  | [] => p
  | c :: cs =>
    if isBreak c then ⟨cs, p.index + 1, p.line + 1, 0⟩
    else ⟨cs, p.index + 1, p.line, if c = '\uFEFF' then p.column else p.column + 1⟩

/-- The place behind the next `n` characters. -/
def skip (p : Place) : Nat → Place
  | 0 => p
  | n + 1 => p.next.skip n

/-- The characters from a place on that have a property, and the place behind them. -/
def span (p : Place) (which : Char → Bool) : List Char × Place :=
  let cs := p.rest.takeWhile which
  (cs, p.skip cs.length)

/-- The place behind the characters that have a property. -/
def skipWhile (p : Place) (which : Char → Bool) : Place :=
  (p.span which).2

/-- A line break as it counts in a text, and the place behind it. The breaks of lines and paragraphs
stand for themselves, and the others for a newline. -/
def lineBreak (p : Place) : Char × Place :=
  let c := p.peek
  (if c == '\u2028' || c == '\u2029' then c else '\n', p.next)

/-- Whether three of the character `c` stand at a place, with a blank behind them. -/
def atThree (p : Place) (c : Char) : Bool :=
  p.peek == c && p.peekAt 1 == c && p.peekAt 2 == c && isBlankOrEnd (p.peekAt 3)

/-- Whether the mark of a document's start or end stands at a place. -/
def atMarker (p : Place) : Bool :=
  p.atThree '-' || p.atThree '.'

/-- The place behind a comment, if one starts here. -/
def skipComment (p : Place) : Place :=
  if p.peek == '#' then p.skipWhile fun c => !isBreak c else p

end Place

end DiceNotation.Yaml
