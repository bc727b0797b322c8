import DiceNotation.Yaml.Scalar

/-!
# Tokens of a document

A document as a sequence of tokens: its scalars and marks, with the starts and the ends of the blocks
that its indentation makes. Whether a scalar is a key shows only at the colon behind it, so a token
that may be one is remembered with its position in the sequence, and the tokens that make it a key are
put in front of it when the colon comes. A key stands on one line with its colon, and not more than
`maxKeyLength` characters before it.
-/

namespace DiceNotation.Yaml

/-- A tag as it is written: an abbreviation of a common beginning, where it has one, and the rest. -/
structure TagName where
  /-- The abbreviation. -/
  handle : Option String
  /-- The rest of the tag. -/
  suffix : String
  deriving DecidableEq, Repr

/-- A token. -/
inductive Token
  /-- The version of the format. -/
  | version (major : Nat)
  /-- An abbreviation of the beginning of a tag. -/
  | tagPrefix (handle beginning : String)
  /-- A directive that means nothing. -/
  | directive
  | documentStart
  | documentEnd
  | blockSequence
  | blockMapping
  | blockEnd
  | flowSequence
  | flowSequenceEnd
  | flowMapping
  | flowMappingEnd
  /-- A key follows. -/
  | key
  /-- A value follows. -/
  | value
  /-- An item of a block follows. -/
  | blockEntry
  /-- An item in brackets or braces follows. -/
  | flowEntry
  | aliasOf (name : String)
  | anchor (name : String)
  | tag (name : TagName)
  | scalar (text : String) (plain : Bool)
  deriving DecidableEq, Repr

/-- How far before its colon a key may start. -/
def maxKeyLength : Nat := 1024

/-- A token that a colon may turn into a key. -/
structure PossibleKey where
  /-- How many tokens are before it. -/
  number : Nat
  /-- Whether it has to be a key, because nothing else can stand there. -/
  required : Bool
  /-- Where it starts. -/
  place : Place
  deriving DecidableEq, Repr

/-- A document that has been read in part. -/
structure Reader where
  /-- What is left. -/
  place : Place
  /-- The tokens so far, the latest first. -/
  tokens : List Token := []
  /-- How many brackets and braces are open. -/
  flow : Nat := 0
  /-- The column of the innermost block, which is -1 outside of all. -/
  indent : Int := -1
  /-- The columns of the blocks around it. -/
  outer : List Int := []
  /-- Whether a key may start here. -/
  keyAllowed : Bool := true
  /-- The token that may be a key, for each number of open brackets. -/
  keys : List (Nat × PossibleKey) := []
  deriving Repr

namespace Reader

/-- Adds a token. -/
def push (r : Reader) (t : Token) : Reader :=
  { r with tokens := t :: r.tokens }

/-- Puts tokens behind the first `n`. -/
def insert (r : Reader) (n : Nat) (ts : List Token) : Reader :=
  let behind := r.tokens.length - n
  { r with tokens := r.tokens.take behind ++ ts.reverse ++ r.tokens.drop behind }

/-- Whether brackets or braces are open. -/
def inFlow (r : Reader) : Bool :=
  r.flow != 0

/-- The token that may be a key here. -/
def possibleKey? (r : Reader) : Option PossibleKey :=
  r.keys.lookup r.flow

/-- Gives up the token that may be a key here, unless it has to be one. -/
def dropKey (r : Reader) : Except Error Reader :=
  match r.possibleKey? with
  | none => .ok r
  | some k =>
    if k.required then .error .malformed
    else .ok { r with keys := r.keys.filter fun e => e.1 != r.flow }

/-- Remembers that the next token may be a key. -/
def saveKey (r : Reader) : Except Error Reader :=
  if r.keyAllowed then do
    let r ← r.dropKey
    -- At the column of a block of keys, nothing but a key can stand.
    let required := !r.inFlow && r.indent == r.place.column
    return { r with keys := (r.flow, ⟨r.tokens.length, required, r.place⟩) :: r.keys }
  else .ok r

/-- Whether a token that may be a key is too far back to be one. -/
def isStale (r : Reader) (k : PossibleKey) : Bool :=
  k.place.line != r.place.line || r.place.index > k.place.index + maxKeyLength

/-- Gives up the tokens that are too far back to be keys. -/
def dropStale (r : Reader) : Except Error Reader :=
  if r.keys.any fun e => r.isStale e.2 && e.2.required then .error .malformed
  else .ok { r with keys := r.keys.filter fun e => !r.isStale e.2 }

/-- Closes the blocks that are indented by more than `column`. -/
def closeTo (column : Int) : List Int → Reader → Reader
  | [], r => r
  | i :: outer, r =>
    if r.indent > column then
      closeTo column outer { r with indent := i, outer := outer, tokens := .blockEnd :: r.tokens }
    else r

/-- Closes the blocks that the indentation `column` ends. Inside of brackets it ends none. -/
def unwind (r : Reader) (column : Int) : Reader :=
  if r.inFlow then r else closeTo column r.outer r

/-- Whether a token at `column` starts a block, and the reader inside of it. -/
def openBlock (r : Reader) (column : Nat) : Bool × Reader :=
  if r.indent < column then (true, { r with indent := column, outer := r.indent :: r.outer })
  else (false, r)

/-- Passes over spaces, comments and line breaks. Behind a line break a key may start. -/
def skipBlanks : Nat → Reader → Reader
  | 0, r => r
  | n + 1, r =>
    let p := (r.place.skipWhile (· == ' ')).skipComment
    if isBreak p.peek then
      skipBlanks n { r with place := p.next, keyAllowed := r.keyAllowed || !r.inFlow }
    else { r with place := p }

/-! ## Directives, tags and anchors -/

/-- A run of word characters, which is not empty. -/
def readWord (p : Place) : Except Error (List Char × Place) :=
  let (word, p) := p.span isWordChar
  if word.isEmpty then .error .malformed else .ok (word, p)

/-- A run of digits as a number. -/
def readNumber (p : Place) : Except Error (Nat × Place) :=
  let (digits, p) := p.span isDigit
  if digits.isEmpty then .error .malformed
  else .ok (digits.foldl (fun n c => 10 * n + (c.toNat - 48)) 0, p)

/-- The handle of a tag: one exclamation mark, or two with word characters between them. -/
def readHandle (p : Place) : Except Error (String × Place) :=
  if p.peek != '!' then .error .malformed
  else
    let p := p.next
    if p.peek == ' ' then .ok ("!", p)
    else
      let (word, p) := p.span isWordChar
      if p.peek == '!' then .ok (String.ofList ('!' :: word ++ ['!']), p.next)
      else .error .malformed

/-- A character of a tag that stands for itself. -/
def isTagChar (c : Char) : Bool :=
  isWordChar c || ";/?:@&=+$,.!~*'()[]".toList.contains c

/-- The bytes of escapes in a row, each a percent sign and two hexadecimal digits. -/
def readEscapes : Nat → List UInt8 → Place → Except Error (List UInt8 × Place)
  | 0, bytes, p => .ok (bytes.reverse, p)
  | n + 1, bytes, p =>
    if p.peek == '%' then do
      let (code, p) ← readHex p.next 2 0
      readEscapes n (UInt8.ofNat code :: bytes) p
    else .ok (bytes.reverse, p)

/-- The characters of a tag, in which escapes stand for the bytes of other characters. -/
def readTagChars : Nat → List Char → Place → Except Error (List Char × Place)
  | 0, text, p => .ok (text, p)
  | n + 1, text, p =>
    if p.peek == '%' then do
      let (bytes, p) ← readEscapes p.rest.length [] p
      match String.fromUTF8? ⟨bytes.toArray⟩ with
      | some s => readTagChars n (text ++ s.toList) p
      | none => throw .malformed
    else
      let (run, behind) := p.span isTagChar
      if run.isEmpty then .ok (text, p) else readTagChars n (text ++ run) behind

/-- The characters of a tag, of which there is at least one. -/
def readTagText (p : Place) : Except Error (String × Place) := do
  let (text, behind) ← readTagChars p.rest.length [] p
  if behind.index = p.index then throw .malformed
  return (String.ofList text, behind)

/-- Whether an exclamation mark comes before the next space. -/
def hasHandle (p : Place) : Bool :=
  p.rest.tail.takeWhile (fun c => !isSpaceOrEnd c) |>.contains '!'

/-- A tag. -/
def readTag (p : Place) : Except Error (TagName × Place) := do
  let (name, p) ←
    if p.peekAt 1 == '<' then do
      let (suffix, p) ← readTagText (p.skip 2)
      if p.peek != '>' then throw .malformed
      pure (⟨none, suffix⟩, p.next)
    else if isBlankOrEnd (p.peekAt 1) then pure (⟨none, "!"⟩, p.next)
    else do
      let (handle, p) ← if hasHandle p then readHandle p else pure ("!", p.next)
      let (suffix, p) ← readTagText p
      pure (⟨some handle, suffix⟩, p)
  if isSpaceOrEnd p.peek then return (name, p) else throw .malformed

/-- The name of an anchor or an alias, behind its indicator. -/
def readAnchor (p : Place) : Except Error (String × Place) := do
  let (name, p) ← readWord p.next
  if isBlankOrEnd p.peek || "?:,]\x7d%@\x60".toList.contains p.peek then
    return (String.ofList name, p)
  else throw .malformed

/-- A directive, from its percent sign to the end of its line. -/
def readDirective (p : Place) : Except Error (Token × Place) := do
  let (name, p) ← readWord p.next
  if !isSpaceOrEnd p.peek then throw .malformed
  let (token, p) ←
    if name = "YAML".toList then do
      let (major, p) ← readNumber (p.skipWhile (· == ' '))
      if p.peek != '.' then throw .malformed
      let (_, p) ← readNumber p.next
      if !isSpaceOrEnd p.peek then throw .malformed
      pure (.version major, p)
    else if name = "TAG".toList then do
      let (handle, p) ← readHandle (p.skipWhile (· == ' '))
      if p.peek != ' ' then throw .malformed
      let (beginning, p) ← readTagText (p.skipWhile (· == ' '))
      if !isSpaceOrEnd p.peek then throw .malformed
      pure (.tagPrefix handle beginning, p)
    else pure (.directive, p.skipWhile fun c => !isBreak c)
  let p ← ignoredLine p
  return (token, p)

/-! ## One token -/

/-- A mark of a document's start or end, or a directive: all blocks end before it. -/
def endBlocks (r : Reader) : Except Error Reader := do
  let r ← (r.unwind (-1)).dropKey
  return { r with keyAllowed := false }

/-- An opening bracket or brace. -/
def openFlow (r : Reader) (t : Token) : Except Error Reader := do
  let r ← r.saveKey
  return { r with flow := r.flow + 1, keyAllowed := true, place := r.place.next }.push t

/-- A closing bracket or brace. One that closes nothing is refused. -/
def closeFlow (r : Reader) (t : Token) : Except Error Reader := do
  let r ← r.dropKey
  if !r.inFlow then throw .malformed
  return { r with flow := r.flow - 1, keyAllowed := false, place := r.place.next }.push t

/-- A comma in brackets or braces. -/
def flowEntry (r : Reader) : Except Error Reader := do
  let r ← r.dropKey
  return { r with keyAllowed := true, place := r.place.next }.push .flowEntry

/-- A dash before an item of a block. -/
def blockEntry (r : Reader) : Except Error Reader := do
  if !r.inFlow && !r.keyAllowed then throw .malformed
  let r :=
    if r.inFlow then r
    else
      let (opened, r) := r.openBlock r.place.column
      if opened then r.push .blockSequence else r
  let r ← r.dropKey
  return { r with keyAllowed := true, place := r.place.next }.push .blockEntry

/-- Starts a mapping in a block for a key or a value with no possible key before it. -/
def openMapping (r : Reader) : Except Error Reader := do
  if r.inFlow then return r
  if !r.keyAllowed then throw .malformed
  let (opened, r) := r.openBlock r.place.column
  return if opened then r.push .blockMapping else r

/-- A question mark before a key. -/
def keyMark (r : Reader) : Except Error Reader := do
  let r ← r.openMapping
  let r ← r.dropKey
  return { r with keyAllowed := !r.inFlow, place := r.place.next }.push .key

/-- A colon before a value. -/
def valueMark (r : Reader) : Except Error Reader := do
  match r.possibleKey? with
  | some k =>
    -- The block of the mapping starts where its first key does.
    let r := { r with keys := r.keys.filter fun e => e.1 != r.flow }
    let (opened, r) := if r.inFlow then (false, r) else r.openBlock k.place.column
    let r := r.insert k.number (if opened then [.blockMapping, .key] else [.key])
    return { r with keyAllowed := false, place := r.place.next }.push .value
  | none =>
    let r ← r.openMapping
    let r ← r.dropKey
    return { r with keyAllowed := !r.inFlow, place := r.place.next }.push .value

/-- An anchor, an alias or a tag, which may start a key. -/
def property (r : Reader) (read : Place → Except Error (Token × Place)) : Except Error Reader := do
  let r ← r.saveKey
  let (t, p) ← read r.place
  return { r with keyAllowed := false, place := p }.push t

/-- A quoted scalar. -/
def quoted (r : Reader) : Except Error Reader :=
  r.property fun p => do
    let (text, p) ← quotedScalar p
    return (.scalar (String.ofList text) false, p)

/-- A block scalar, behind which a key may start. -/
def block (r : Reader) (folded : Bool) : Except Error Reader := do
  let r ← r.dropKey
  let (text, p) ← blockScalar folded r.indent r.place.next
  return { r with keyAllowed := true, place := p }.push (.scalar (String.ofList text) false)

/-- A plain scalar. -/
def plain (r : Reader) : Except Error Reader := do
  let r ← r.saveKey
  let (text, broken, p) := plainScalar r.inFlow (r.indent + 1) r.place
  return { r with keyAllowed := broken, place := p }.push (.scalar (String.ofList text) true)

/-- Whether a plain scalar starts at a place. -/
def startsPlain (flow : Bool) (p : Place) : Bool :=
  let c := p.peek
  !(isBlankOrEnd c || "-?:,[]\x7b\x7d#&*!|>'\"%@\x60".toList.contains c) ||
    (!isBlankOrEnd (p.peekAt 1) && (c == '-' || (!flow && (c == '?' || c == ':'))))

/-- The token at the place of a reader, which is not at the end of the text. -/
def token (r : Reader) : Except Error Reader := do
  let p := r.place
  let c := p.peek
  let spaced := isBlankOrEnd (p.peekAt 1)
  if c == '%' && p.column == 0 then
    let r ← r.endBlocks
    let (t, p) ← readDirective r.place
    return { r with place := p }.push t
  else if p.column == 0 && p.atThree '-' then
    let r ← r.endBlocks
    return { r with place := r.place.skip 3 }.push .documentStart
  else if p.column == 0 && p.atThree '.' then
    let r ← r.endBlocks
    return { r with place := r.place.skip 3 }.push .documentEnd
  else if c == '[' then r.openFlow .flowSequence
  else if c == '\x7b' then r.openFlow .flowMapping
  else if c == ']' then r.closeFlow .flowSequenceEnd
  else if c == '\x7d' then r.closeFlow .flowMappingEnd
  else if c == ',' then r.flowEntry
  else if c == '-' && spaced then r.blockEntry
  else if c == '?' && (r.inFlow || spaced) then r.keyMark
  else if c == ':' && (r.inFlow || spaced) then r.valueMark
  else if c == '*' then r.property fun p => (readAnchor p).map fun (n, p) => (.aliasOf n, p)
  else if c == '&' then r.property fun p => (readAnchor p).map fun (n, p) => (.anchor n, p)
  else if c == '!' then r.property fun p => (readTag p).map fun (n, p) => (.tag n, p)
  else if c == '|' && !r.inFlow then r.block false
  else if c == '>' && !r.inFlow then r.block true
  else if c == '\'' || c == '"' then r.quoted
  else if startsPlain r.inFlow p then r.plain
  else throw .malformed

/-- Reads tokens to the end of the text. Each token but the ends of blocks takes a character, so no
more steps are needed than there are characters, and one for the end. -/
def run : Nat → Reader → Except Error (List Token)
  | 0, _ => .error .malformed
  | n + 1, r => do
    let r ← (r.skipBlanks (r.place.rest.length + 1)).dropStale
    let r := r.unwind r.place.column
    if r.place.peek == endChar then
      let r ← r.endBlocks
      return r.tokens.reverse
    else
      let r ← r.token
      run n r

end Reader

/-- A character that a document may hold. -/
def isDocumentChar (c : Char) : Bool :=
  let n := c.toNat
  n == 0x09 || n == 0x0A || n == 0x0D || (0x20 ≤ n && n ≤ 0x7E) || n == 0x85 ||
    (0xA0 ≤ n && n ≤ 0xFFFD) || 0x10000 ≤ n

/-- The tokens of a text. A byte order mark at its start is passed over. -/
def tokens (cs : List Char) : Except Error (List Token) :=
  if cs.all isDocumentChar then
    let p := Place.start cs
    let p := if p.peek == '\uFEFF' then p.next else p
    Reader.run (cs.length + 1) { place := p }
  else .error .malformed

end DiceNotation.Yaml
