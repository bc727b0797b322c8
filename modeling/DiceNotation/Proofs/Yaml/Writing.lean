import DiceNotation.Yaml.Value
import DiceNotation.Yaml.Writer

/-!
# Dictionaries of words as documents

A dictionary whose keys and values are single words is written as one line to an entry, with the key, a
colon, a space and the value, and the lines are in the order of the keys (`write_pairs`). No line is
broken, because a word has no space at which it could be.
-/

namespace DiceNotation.Yaml

/-- Word characters, the first of which is no dash. They mean the same wherever they stand in a line. -/
structure IsWord (cs : List Char) : Prop where
  /-- There is a character. -/
  ne_nil : cs ≠ []
  /-- All of them are word characters. -/
  chars : ∀ c ∈ cs, isWordChar c = true
  /-- A dash before a blank would start an item. -/
  head : cs.head? ≠ some '-'

/-- The characters of a word are looked at one by one. -/
instance (cs : List Char) : Decidable (IsWord cs) :=
  decidable_of_iff (cs ≠ [] ∧ cs.all isWordChar = true ∧ cs.head? ≠ some '-')
    ⟨fun h => ⟨h.1, List.all_eq_true.1 h.2.1, h.2.2⟩,
      fun h => ⟨h.ne_nil, List.all_eq_true.2 h.chars, h.head⟩⟩

/-- A key that is written on one line with its value, and is a text by its look. -/
structure IsKey (key : String) : Prop where
  /-- The key is a word. -/
  isWord : IsWord key.toList
  /-- The key fits on a line with its value. -/
  short : key.length + 5 < maxSimpleKey
  /-- The key needs no quotes. -/
  plain : styleOf true key = .plain
  /-- The key does not look like anything but a text. -/
  tag : Tag.ofPlain key = .str

/-- A word that denotes a value by its look. -/
structure Denotes (text : String) (value : Data) : Prop where
  /-- The text is a word. -/
  isWord : IsWord text.toList
  /-- The value is that of the text as a scalar of the kind that it looks like. -/
  data : scalarData (Tag.ofPlain text) text = .ok value

/-- An entry of a dictionary with a word for its key and a word for its value. -/
structure Entry where
  /-- The key. -/
  key : String
  /-- The value. -/
  value : Data
  /-- The word for the value. -/
  text : String
  /-- The key stands on one line with its value. -/
  isKey : IsKey key
  /-- The word denotes the value. -/
  denotes : Denotes text value

/-- The word is the one that the value is written as. -/
structure Entry.IsWritten (e : Entry) : Prop where
  /-- The value is written as a scalar. -/
  scalar : (scalarText? e.value).map (·.1) = some e.text
  /-- The value needs no quotes. -/
  plain : scalarStyle false e.value e.text = .plain

/-! ## Characters of words -/

/-- A word character is not any other one. -/
theorem IsWord.ne_of_mem {cs : List Char} (h : IsWord cs) {c d : Char} (hc : c ∈ cs)
    (hd : isWordChar d = false) : c ≠ d := by
  rintro rfl
  rw [h.chars c hc] at hd
  cases hd

/-- A word character is no line break. -/
theorem isBreak_of_isWordChar {c : Char} (h : isWordChar c = true) : isBreak c = false := by
  rw [isBreak, ← Bool.not_eq_true]
  intro hbreak
  simp only [Bool.or_eq_true, beq_iff_eq] at hbreak
  rcases hbreak with ((rfl | rfl) | rfl) | rfl <;> exact absurd h (by decide)

namespace Entry

variable (e : Entry)

/-- The entry as data. -/
def pair : Data × Data :=
  (.text e.key, e.value)

/-- The line of an entry. -/
def line : List Char :=
  e.key.toList ++ ':' :: ' ' :: e.text.toList ++ ['\n']

/-- The entries in the order of their keys. -/
def byKey (es : List Entry) : List Entry :=
  es.mergeSort fun a b => a.key ≤ b.key

/-! ## The page -/

/-- Characters that are no spaces are put on the page as they are. -/
theorem plainChars_of_forall_ne_space (split : Bool) (indent : Nat) {cs : List Char}
    (h : ∀ c ∈ cs, c ≠ ' ') {run : List Char} (hrun : run.head? ≠ some ' ') (p : Page) :
    plainChars split indent run cs p = p.put (run.reverse ++ cs) := by
  induction cs generalizing run with
  | nil => rw [plainChars, List.append_nil]
  | cons c cs ih =>
    have hc := h c List.mem_cons_self
    have hrest : plainChars split indent (c :: run) cs p = p.put ((c :: run).reverse ++ cs) :=
      ih (fun d hd => h d (List.mem_cons_of_mem _ hd)) fun heq => hc (Option.some.inj heq)
    unfold plainChars
    dsimp only
    rw [if_neg hc, if_neg (by simpa using hrun), hrest, List.reverse_cons, List.append_assoc,
      List.singleton_append]

/-- A word is put on the page, behind a space where one is needed. -/
theorem writePlain_of_isWord (split : Bool) (indent : Nat) {cs : List Char} (h : IsWord cs) (p : Page) :
    writePlain split indent cs p =
      { (if p.spaced then p else p.put [' ']).put cs with spaced := false, indenting := false } := by
  rw [writePlain, plainChars_of_forall_ne_space split indent (fun c hc => h.ne_of_mem hc (by decide))
    (by decide)]
  rfl

/-- A scalar is written by its style. -/
theorem writeData_of_scalarText? {d : Data} {s : String} (h : (scalarText? d).map (·.1) = some s)
    (indent : Nat) (p : Page) :
    writeData true indent d p =
      writeScalar (scalarStyle false d s) false (indent + indentStep) s p := by
  obtain ⟨⟨t, width⟩, ht, rfl⟩ := Option.map_eq_some_iff.1 h
  unfold writeData
  -- No collection is a scalar.
  split
  · cases ht
  · cases ht
  · cases ht
  · cases ht
  · rw [ht]

/-- The page with the entry on a line of its own behind `cs`. -/
def page (cs : List Char) : Page where
  written := e.text.toList.reverse ++ ' ' :: ':' :: (e.key.toList.reverse ++ cs)
  column := e.key.toList.length + 1 + 1 + e.text.toList.length
  spaced := false
  indenting := false

/-- Behind an entry a new line starts. -/
theorem goTo_page (cs : List Char) : (e.page cs).goTo 0 = { written := e.line.reverse ++ cs } := by
  simp [page, Page.goTo, Page.newLine, line]

/-- The key of an entry is written on one line with its value. -/
theorem isSimpleKey_key : isSimpleKey (.text e.key) = true := by
  have hnonempty : e.key.isEmpty = false := by
    rw [← Bool.not_eq_true, String.isEmpty_iff]
    intro h
    exact e.isKey.isWord.ne_nil (by rw [h]; rfl)
  have hinline : e.key.toList.any isBreak = false := by
    rw [List.any_eq_false]
    intro c hc
    rw [isBreak_of_isWordChar (e.isKey.isWord.chars c hc)]
    decide
  rw [isSimpleKey, scalarText?]
  dsimp only
  rw [hnonempty, hinline, decide_eq_true e.isKey.short]
  rfl

/-- An entry is written on a new line, before the entries behind it. -/
theorem writeEntries_cons (he : e.IsWritten) (es : List (Data × Data)) {p : Page} {cs : List Char}
    (hp : p.goTo 0 = { written := cs }) :
    writeEntries 0 (e.pair :: es) p = writeEntries 0 es (e.page cs) := by
  have hkey : scalarStyle true (.text e.key) e.key = .plain := e.isKey.plain
  rw [pair, writeEntries, hp]
  dsimp only [scalarText?, Option.map_some, Option.getD_some]
  rw [if_pos e.isSimpleKey_key, writeData_of_scalarText? he.scalar, he.plain, hkey]
  dsimp only [writeScalar]
  rw [writePlain_of_isWord _ _ e.isKey.isWord, writePlain_of_isWord _ _ e.denotes.isWord]
  simp [page, Page.mark, Page.put]

/-- Entries are written on a line each. -/
theorem goTo_writeEntries {es : List Entry} (hes : ∀ e ∈ es, e.IsWritten) {p : Page} {cs : List Char}
    (hp : p.goTo 0 = { written := cs }) :
    (writeEntries 0 (es.map pair) p).goTo 0 = { written := (es.flatMap line).reverse ++ cs } := by
  induction es generalizing p cs with
  | nil => rw [List.map_nil, writeEntries, hp, List.flatMap_nil, List.reverse_nil, List.nil_append]
  | cons e es ih =>
    obtain ⟨he, hes⟩ := List.forall_mem_cons.1 hes
    rw [List.map_cons, writeEntries_cons e he _ hp, ih hes (e.goTo_page cs), List.flatMap_cons,
      List.reverse_append, List.append_assoc]

/-! ## The document -/

/-- In a dictionary of words there is no other one to be put in order. -/
theorem sortedEntries_pairs {es : List Entry} (hes : ∀ e ∈ es, e.IsWritten) :
    sortedEntries (es.map pair) = es.map pair := by
  induction es with
  | nil => rfl
  | cons e es ih =>
    obtain ⟨he, hes⟩ := List.forall_mem_cons.1 hes
    have hvalue : sorted e.value = e.value := by
      have hscalar := he.scalar
      cases h : e.value <;> first | rfl | (rw [h] at hscalar; cases hscalar)
    rw [List.map_cons, pair, sortedEntries, hvalue, ih hes]

/-- Texts can be compared, so the entries are put in the order of their keys. -/
theorem sortEntries_pairs (es : List Entry) : sortEntries (es.map pair) = (byKey es).map pair := by
  have hsorted : (es.map pair).mergeSort (fun a b => (compareKeys? a.1 b.1).getD true) =
      (byKey es).map pair := by
    rw [byKey]
    refine (List.map_mergeSort ?_).symm
    intro a _ b _
    rfl
  unfold sortEntries
  dsimp only
  rw [hsorted]
  refine if_pos ?_
  cases es with
  | nil => rfl
  | cons e es =>
    show (es.map pair).all (fun f => (compareKeys? (.text e.key) f.1).isSome) = true
    rw [List.all_map, List.all_eq_true]
    intro f _
    rfl

/-- A dictionary of words is written as the lines of its entries in the order of their keys. -/
theorem write_pairs {es : List Entry} (hes : ∀ e ∈ es, e.IsWritten) :
    write (es.map pair) = String.ofList ((byKey es).flatMap line) := by
  have hstart : ({} : Page).goTo 0 = { written := [] } := rfl
  have hsorted : ∀ e ∈ byKey es, e.IsWritten := fun e he => hes e (List.mem_mergeSort.1 he)
  rw [write, sortedEntries_pairs hes, sortEntries_pairs, goTo_writeEntries hsorted hstart, List.append_nil,
    List.reverse_reverse]

end Entry

end DiceNotation.Yaml
