import DiceNotation.Yaml.Tag
import DiceNotation.Yaml.Token

/-!
# Nodes of a document

The tree that the tokens of a document spell: scalars, sequences and mappings, each with the kind of
value that it denotes. A node with an anchor can stand in several places, even inside of itself, so
the tree keeps the names of the aliases, and the anchored nodes are listed beside it.
-/

namespace DiceNotation.Yaml

/-- A node. The collections are numbered, so that each can be told from the others. -/
inductive Node
  /-- A text with what it is to be taken for. -/
  | scalar (tag : Tag) (text : String)
  /-- Nodes in a row. -/
  | sequence (number : Nat) (tag : Tag) (items : List Node)
  /-- Keys with their values. -/
  | mapping (number : Nat) (tag : Tag) (entries : List (Node × Node))
  /-- The node with the anchor `name`. -/
  | aliasOf (name : String)
  deriving Inhabited

/-- A document. -/
structure Document where
  /-- The node at the root. -/
  root : Node
  /-- The nodes with an anchor. -/
  anchors : List (String × Node)
  /-- How many collections there are. -/
  count : Nat

namespace Node

/-- A node that is nothing but a place. -/
def empty : Node :=
  .scalar .null ""

/-- A document that is read in part. -/
structure Reading where
  /-- The tokens that are left. -/
  rest : List Token
  /-- The names of the anchors so far. -/
  names : List String := []
  /-- The anchored nodes that are complete. -/
  anchors : List (String × Node) := []
  /-- How many collections there are so far. -/
  count : Nat := 0
  /-- The abbreviations of tags. -/
  handles : List (String × String) := [("!", "!"), ("!!", tagBase)]

/-- Reads a part of a document. -/
abbrev Composer (α : Type) := StateT Reading (Except Error) α

/-- The next token, which is left in its place. -/
def peek : Composer (Option Token) := do
  return (← get).rest.head?

/-- Passes over the next token. -/
def skip : Composer Unit :=
  modify fun s => { s with rest := s.rest.tail }

/-- Whether the next token is `t`, which is passed over if it is. -/
def accept (t : Token) : Composer Bool := do
  if (← peek) = some t then
    skip
    return true
  else return false

/-- Passes over the token `t`, which has to be the next one. -/
def expect (t : Token) : Composer Unit := do
  if !(← accept t) then throw .malformed

/-- Whether the next token is one of some; the end of the document is none of them. -/
def nextIsIn (ts : List Token) : Composer Bool := do
  match ← peek with
  | some t => return ts.contains t
  | none => return false

/-- The number of a new collection. -/
def newNumber : Composer Nat :=
  modifyGet fun s => (s.count, { s with count := s.count + 1 })

/-- A name for a node that is about to be read, which no other node has. -/
def declare (name? : Option String) : Composer Unit := do
  match name? with
  | none => pure ()
  | some name =>
    if (← get).names.contains name then throw .malformed
    modify fun s => { s with names := name :: s.names }

/-- A node that has been read, which is listed if it has a name. -/
def complete (name? : Option String) (n : Node) : Composer Node := do
  match name? with
  | none => return n
  | some name =>
    modify fun s => { s with anchors := (name, n) :: s.anchors }
    return n

/-- The anchor before a node. -/
def takeAnchor : Composer (Option String) := do
  match ← peek with
  | some (.anchor name) =>
    skip
    return some name
  | _ => return none

/-- The tag before a node. -/
def takeTag : Composer (Option TagName) := do
  match ← peek with
  | some (.tag name) =>
    skip
    return some name
  | _ => return none

/-- The anchor and the tag before a node, in either order. -/
def takeProperties : Composer (Option String × Option TagName) := do
  match ← takeAnchor with
  | some name => return (some name, ← takeTag)
  | none =>
    match ← takeTag with
    | some tag => return (← takeAnchor, some tag)
    | none => return (none, none)

/-- A tag in full. -/
def fullTag (name : TagName) : Composer String := do
  match name.handle with
  | none => return name.suffix
  | some handle =>
    match (← get).handles.lookup handle with
    | some beginning => return beginning ++ name.suffix
    | none => throw .malformed

/-- The tag of a node that is not a scalar. -/
def kindOr (default : Tag) (tag? : Option String) : Tag :=
  match tag? with
  | none => default
  | some tag => if tag = "!" then default else Tag.ofText tag

/-- The tag of a scalar. One that is not plain is a text unless it says otherwise, and the tag `!` asks
for the look of the scalar. -/
def scalarKind (plain : Bool) (tag? : Option String) (text : String) : Tag :=
  match tag? with
  | none => if plain then Tag.ofPlain text else .str
  | some tag => if tag = "!" then Tag.ofPlain text else Tag.ofText tag

/-- Reads a part of a document with what reads the nodes in it. -/
abbrev Part (α : Type) := (block indentless : Bool) → Composer α

/-- The items of a block, each behind a dash. A dash with nothing behind it has an empty item; `ends`
are the tokens that show it. -/
def blockItems (node : Part Node) (ends : List Token) : Nat → Composer (List Node)
  | 0 => throw .malformed
  | n + 1 => do
    if ← accept .blockEntry then
      let item ← if ← nextIsIn ends then pure empty else node true false
      return item :: (← blockItems node ends n)
    else return []

/-- The key of an entry, or its value, behind its mark. -/
def blockSide (node : Part Node) : Composer Node := do
  if ← nextIsIn [.key, .value, .blockEnd] then return empty else node true true

/-- The entries of a mapping in a block. An entry may lack its value. -/
def blockEntries (node : Part Node) : Nat → Composer (List (Node × Node))
  | 0 => throw .malformed
  | n + 1 => do
    if ← accept .key then
      let k ← blockSide node
      let v ← if ← accept .value then blockSide node else pure empty
      return (k, v) :: (← blockEntries node n)
    else
      expect .blockEnd
      return []

/-- A key or a value in brackets or braces, which is empty before the tokens `ends`. -/
def flowSide (node : Part Node) (ends : List Token) : Composer Node := do
  if ← nextIsIn ends then return empty else node false false

/-- The value behind a colon in brackets or braces, which is empty without one. -/
def flowValue (node : Part Node) (ends : List Token) : Composer Node := do
  if ← accept .value then flowSide node ends else return empty

/-- The items in brackets, where a comma may stand behind the last one. An item with a colon is a
mapping of one entry. -/
def flowItems (node : Part Node) : Nat → Bool → Composer (List Node)
  | 0, _ => throw .malformed
  | n + 1, first => do
    if ← accept .flowSequenceEnd then return []
    if !first then expect .flowEntry
    if ← accept .flowSequenceEnd then return []
    let item ← do
      if ← accept .key then
        let number ← newNumber
        let k ← flowSide node [.value, .flowEntry, .flowSequenceEnd]
        let v ← flowValue node [.flowEntry, .flowSequenceEnd]
        pure (.mapping number .map [(k, v)])
      else node false false
    return item :: (← flowItems node n false)

/-- The entries in braces, where a comma may stand behind the last one. What has no colon is a key. -/
def flowEntries (node : Part Node) : Nat → Bool → Composer (List (Node × Node))
  | 0, _ => throw .malformed
  | n + 1, first => do
    if ← accept .flowMappingEnd then return []
    if !first then expect .flowEntry
    if ← accept .flowMappingEnd then return []
    let entry ← do
      if ← accept .key then
        let k ← flowSide node [.value, .flowEntry, .flowMappingEnd]
        let v ← flowValue node [.flowEntry, .flowMappingEnd]
        pure (k, v)
      else pure (← node false false, empty)
    return entry :: (← flowEntries node n false)

/-- A sequence of the items that are read. -/
def sequenceOf (name : Option String) (tag : Option String) (items : Composer (List Node)) :
    Composer Node := do
  let number ← newNumber
  complete name (.sequence number (kindOr .seq tag) (← items))

/-- A mapping of the entries that are read. -/
def mappingOf (name : Option String) (tag : Option String)
    (entries : Composer (List (Node × Node))) : Composer Node := do
  let number ← newNumber
  complete name (.mapping number (kindOr .map tag) (← entries))

/-- A node behind its anchor and its tag. `length` bounds the number of items of a collection. -/
def content (node : Part Node) (length : Nat) (block indentless : Bool) (name : Option String)
    (tag : Option String) : Composer Node := do
  declare name
  match ← peek with
  | some (.scalar text plain) =>
    skip
    complete name (.scalar (scalarKind plain tag text) text)
  | some .flowSequence =>
    skip
    sequenceOf name tag (flowItems node length true)
  | some .flowMapping =>
    skip
    mappingOf name tag (flowEntries node length true)
  | t =>
    if t = some .blockEntry && indentless then
      sequenceOf name tag
        (blockItems node [.blockEntry, .key, .value, .blockEnd] length)
    else if t = some .blockSequence && block then
      skip
      sequenceOf name tag do
        let items ← blockItems node [.blockEntry, .blockEnd] length
        expect .blockEnd
        return items
    else if t = some .blockMapping && block then
      skip
      mappingOf name tag (blockEntries node length)
    else if name.isSome || tag.isSome then
      complete name (.scalar (scalarKind true tag "") "")
    else throw .malformed

/-- A node with fewer than `depth` nodes around it that is read. `block` says whether it may be a block
of its own, and `indentless` whether its dashes may stand at the column of the block around it. -/
def read (length : Nat) : Nat → Part Node
  | 0, _, _ => throw .malformed
  | depth + 1, block, indentless => do
    match ← peek with
    | some (.aliasOf name) =>
      skip
      if (← get).names.contains name then return .aliasOf name else throw .malformed
    | _ =>
      let (name, tagName) ← takeProperties
      let tag ← match tagName with
        | none => pure none
        | some t => do pure (some (← fullTag t))
      content (read length depth) length block indentless name tag

/-- The directives before a document: at most one version, which is the first, and abbreviations of
tags, each once. -/
def directives : Nat → Bool → List (String × String) → Composer (List (String × String))
  | 0, _, _ => throw .malformed
  | n + 1, versioned, handles => do
    match ← peek with
    | some (.version major) =>
      skip
      if versioned || major != 1 then throw .malformed
      directives n true handles
    | some (.tagPrefix handle beginning) =>
      skip
      if handles.any fun e => e.1 == handle then throw .malformed
      directives n versioned ((handle, beginning) :: handles)
    | some .directive =>
      skip
      directives n versioned handles
    | _ => return handles

/-- Passes over marks of a document's end. -/
def skipEnds : Nat → Composer Unit
  | 0 => pure ()
  | n + 1 => do if ← accept .documentEnd then skipEnds n

/-- A directive or the mark of a document's start. -/
def startsDocument : Token → Bool
  | .version _ => true
  | .tagPrefix _ _ => true
  | .directive => true
  | .documentStart => true
  | _ => false

/-- The only document of a text, if it has one. -/
def document (length : Nat) : Composer (Option Node) := do
  match ← peek with
  | none => return none
  | some t =>
    let root ←
      if startsDocument t then do
        let handles ← directives (length + 1) false []
        modify fun s => { s with handles := handles ++ s.handles }
        expect .documentStart
        match ← peek with
        | none => pure empty
        | some t =>
          -- A mark of a document's start with nothing behind it starts an empty document.
          if startsDocument t || t = .documentEnd then pure empty
          else read length (length + 1) true false
      else read length (length + 1) true false
    skipEnds length
    match ← peek with
    | none => return some root
    | some _ => throw .malformed

end Node

/-- The document that tokens spell, if they spell one. -/
def Document.ofTokens? (ts : List Token) : Except Error (Option Document) := do
  let (root, s) ← (Node.document (ts.length + 1)).run { rest := ts }
  return root.map fun root => ⟨root, s.anchors, s.count⟩

end DiceNotation.Yaml
