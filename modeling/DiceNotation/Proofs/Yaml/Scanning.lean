import DiceNotation.Proofs.Yaml.Writing
import DiceNotation.Yaml.Token

/-!
# The tokens of a dictionary of words

The tokens of a document that holds nothing but lines of entries. Each line takes three of them: the key,
which shows to be one at the colon behind it, the colon, and the value, behind which the next line starts
at the column of the block. So a line is read from one state at the start of a line to another one
(`run_line`), all lines by as many such runs (`run_lines`), and the text holds the tokens of its entries
(`tokens_lines`).
-/

namespace DiceNotation.Yaml

/-! ## Places between words -/

/-- The end of the text, or a word at the start of a line. -/
def StartsLine (cs : List Char) : Prop :=
  ∀ c ∈ cs.head?, isWordChar c = true ∧ c ≠ '-'

/-- A line can start with a word. -/
theorem IsWord.startsLine {cs : List Char} (h : IsWord cs) (rest : List Char) : StartsLine (cs ++ rest) := by
  cases cs with
  | nil => exact absurd rfl h.ne_nil
  | cons c cs =>
    intro d hd
    obtain rfl := Option.some.inj hd
    exact ⟨h.chars c List.mem_cons_self, fun hdash => h.head (congrArg some hdash)⟩

/-- The text does not end at a word. -/
theorem IsWord.peek_ne_endChar {cs : List Char} (h : IsWord cs) (rest : List Char)
    (index line column : Nat) : (⟨cs ++ rest, index, line, column⟩ : Place).peek ≠ endChar := by
  obtain ⟨c, cs, rfl⟩ := List.exists_cons_of_ne_nil h.ne_nil
  exact h.ne_of_mem List.mem_cons_self (by decide)

/-- At the start of a line stands no character but that of a word. -/
theorem StartsLine.peek_ne {p : Place} (h : StartsLine p.rest) {d : Char}
    (hd : isWordChar d = false ∨ d = '-') (hend : d ≠ endChar) : p.peek ≠ d := by
  rw [Place.peek]
  cases hrest : p.rest with
  | nil => exact hend.symm
  | cons c cs =>
    rw [hrest] at h
    obtain ⟨hword, hdash⟩ := h c rfl
    rintro rfl
    rcases hd with hd | hd
    · rw [List.headD_cons, hword] at hd
      cases hd
    · exact hdash hd

/-- Before the end of the text a word stands there. -/
theorem StartsLine.isWordChar_peek {p : Place} (h : StartsLine p.rest) (hend : p.peek ≠ endChar) :
    isWordChar p.peek = true := by
  rw [Place.peek] at hend ⊢
  cases hrest : p.rest with
  | nil =>
    rw [hrest] at hend
    exact absurd rfl hend
  | cons c cs =>
    rw [hrest] at h
    exact (h c rfl).1

/-- Neither a word nor the end of the text is a line break. -/
theorem StartsLine.isBreak_peek {p : Place} (h : StartsLine p.rest) : isBreak p.peek = false := by
  have hne := fun d hd hend => beq_eq_false_iff_ne.2 (h.peek_ne (d := d) hd hend)
  rw [isBreak, hne _ (.inl (by decide)) (by decide), hne _ (.inl (by decide)) (by decide),
    hne _ (.inl (by decide)) (by decide), hne _ (.inl (by decide)) (by decide)]
  rfl

/-- Neither a word nor the end of the text is a marker of documents. -/
theorem StartsLine.atMarker {p : Place} (h : StartsLine p.rest) : p.atMarker = false := by
  have hne := fun d hd hend => beq_eq_false_iff_ne.2 (h.peek_ne (d := d) hd hend)
  rw [Place.atMarker, Place.atThree, Place.atThree, hne '-' (.inr rfl) (by decide),
    hne '.' (.inl (by decide)) (by decide)]
  rfl

namespace Place

/-- Characters that are neither line breaks nor marks of the byte order take one column each. -/
theorem skip_append {cs : List Char} (h : ∀ c ∈ cs, isBreak c = false ∧ c ≠ '\uFEFF')
    (rest : List Char) (index line column : Nat) :
    (⟨cs ++ rest, index, line, column⟩ : Place).skip cs.length =
      ⟨rest, index + cs.length, line, column + cs.length⟩ := by
  induction cs generalizing index column with
  | nil => rfl
  | cons c cs ih =>
    obtain ⟨hbreak, hmark⟩ := h c List.mem_cons_self
    have hnext : (⟨c :: (cs ++ rest), index, line, column⟩ : Place).next =
        ⟨cs ++ rest, index + 1, line, column + 1⟩ := by
      rw [next]
      dsimp only
      rw [hbreak, if_neg hmark]
      rfl
    rw [List.cons_append, List.length_cons, skip, hnext, ih fun d hd => h d (List.mem_cons_of_mem _ hd),
      Nat.add_assoc index, Nat.add_assoc column, Nat.add_comm 1]

/-- The characters of a word take one column each. -/
theorem skip_word {cs : List Char} (h : IsWord cs) (rest : List Char) (index line column : Nat) :
    (⟨cs ++ rest, index, line, column⟩ : Place).skip cs.length =
      ⟨rest, index + cs.length, line, column + cs.length⟩ :=
  skip_append (fun _ hc => ⟨isBreak_of_isWordChar (h.chars _ hc), h.ne_of_mem hc (by decide)⟩) ..

/-- Nothing is passed over before another character. -/
theorem span_of_peek {p : Place} {which : Char → Bool} (h : which p.peek = false) :
    p.span which = ([], p) := by
  have hnone : p.rest.takeWhile which = [] := by
    rw [peek] at h
    cases hrest : p.rest with
    | nil => rfl
    | cons c cs =>
      rw [hrest, List.headD_cons] at h
      rw [List.takeWhile_cons, h]
      rfl
  rw [span, hnone]
  rfl

end Place

/-! ## Plain scalars -/

/-- A word character is neither a blank nor the end. -/
theorem isBlankOrEnd_of_isWordChar {c : Char} (h : isWordChar c = true) : isBlankOrEnd c = false := by
  rw [isBlankOrEnd, isSpaceOrEnd, isBreakOrEnd, isBreak_of_isWordChar h, ← Bool.not_eq_true]
  intro hblank
  simp only [Bool.or_eq_true, beq_iff_eq, Bool.false_eq_true, or_false] at hblank
  rcases hblank with rfl | rfl | rfl <;> exact absurd h (by decide)

/-- A word goes on up to its last character. -/
theorem endsPlain_of_isWordChar {c : Char} (h : isWordChar c = true) (following : Char) :
    endsPlain false c following = false := by
  have hcolon : (c == ':') = false := by
    rw [beq_eq_false_iff_ne]
    rintro rfl
    exact absurd h (by decide)
  rw [endsPlain, isBlankOrEnd_of_isWordChar h, hcolon]
  rfl

/-- A plain scalar goes on over word characters. -/
theorem plainRun_append {cs : List Char} (h : ∀ c ∈ cs, isWordChar c = true) {rest : List Char}
    (hrest : plainRun false rest = []) : plainRun false (cs ++ rest) = cs := by
  induction cs with
  | nil => exact hrest
  | cons c cs ih =>
    rw [List.cons_append, plainRun, endsPlain_of_isWordChar (h c List.mem_cons_self), if_neg (by decide),
      ih fun d hd => h d (List.mem_cons_of_mem _ hd)]

/-- A plain scalar of one word, behind which a gap is that nothing follows in the scalar. -/
theorem plainScalar_of_gap {cs rest gap : List Char} {index line column : Nat} {indent : Int} {broken : Bool}
    {q : Place} (h : IsWord cs) (hrest : plainRun false rest = [])
    (hgap : plainGap ⟨rest, index + cs.length, line, column + cs.length⟩ = (gap, broken, q))
    (hlast : (gap.isEmpty || q.peek == '#' || decide ((q.column : Int) < indent)) = true) :
    plainScalar false indent ⟨cs ++ rest, index, line, column⟩ = (cs, broken, q) := by
  have hcomment : (Place.peek ⟨cs ++ rest, index, line, column⟩ == '#') = false :=
    beq_eq_false_iff_ne.2 ((h.startsLine rest).peek_ne (p := ⟨cs ++ rest, index, line, column⟩)
      (.inl (by decide)) (by decide))
  have hrun : (if (Place.peek ⟨cs ++ rest, index, line, column⟩ == '#') = true then []
      else plainRun false (cs ++ rest)) = cs := by
    rw [hcomment]
    exact plainRun_append h.chars hrest
  have hsome : cs.isEmpty = false := by
    rw [← Bool.not_eq_true, List.isEmpty_iff]
    exact h.ne_nil
  obtain ⟨n, hn⟩ : ∃ n, (cs ++ rest).length = n + 1 :=
    Nat.exists_eq_add_one.2 (List.length_pos_iff.2 (List.append_ne_nil_of_left_ne_nil h.ne_nil rest))
  rw [plainScalar, hn, plainWords]
  dsimp only
  rw [hrun, hsome, if_neg Bool.false_ne_true, Place.skip_word h, hgap]
  exact if_pos hlast

/-- A plain scalar ends at the colon behind a key. -/
theorem plainScalar_colon {cs : List Char} (h : IsWord cs) (rest : List Char) (indent : Int)
    (index line column : Nat) :
    plainScalar false indent ⟨cs ++ ':' :: ' ' :: rest, index, line, column⟩ =
      (cs, false, ⟨':' :: ' ' :: rest, index + cs.length, line, column + cs.length⟩) :=
  plainScalar_of_gap h rfl rfl rfl

/-- A plain scalar ends before a line at a column that is not inside of it. -/
theorem plainScalar_newline {cs rest : List Char} (h : IsWord cs) (hrest : StartsLine rest)
    (index line column : Nat) :
    plainScalar false 1 ⟨cs ++ '\n' :: rest, index, line, column⟩ =
      (cs, true, ⟨rest, index + cs.length + 1, line + 1, 0⟩) := by
  have hgap : plainGap ⟨'\n' :: rest, index + cs.length, line, column + cs.length⟩ =
      ([' '], true, ⟨rest, index + cs.length + 1, line + 1, 0⟩) := by
    have hstart : StartsLine (Place.mk rest (index + cs.length + 1) (line + 1) 0).rest := hrest
    have hbreaks : ∀ n, plainBreaks n [] ⟨rest, index + cs.length + 1, line + 1, 0⟩ =
        (some [], ⟨rest, index + cs.length + 1, line + 1, 0⟩) := by
      intro n
      cases n with
      | zero => rfl
      | succ n =>
        rw [plainBreaks, beq_eq_false_iff_ne.2 (hstart.peek_ne (.inl (by decide)) (by decide)),
          hstart.isBreak_peek]
        rfl
    have hnewline : (Place.mk ('\n' :: rest) (index + cs.length) line (column + cs.length)).lineBreak =
        ('\n', ⟨rest, index + cs.length + 1, line + 1, 0⟩) := rfl
    rw [plainGap, Place.span_of_peek rfl]
    dsimp only
    rw [hnewline]
    dsimp only
    rw [hstart.atMarker, hbreaks]
    rfl
  -- The column of the next line is before the least one of the scalar.
  exact plainScalar_of_gap h rfl hgap (Bool.or_eq_true_iff.2 (.inr rfl))

/-! ## One step of a reader -/

namespace Reader

/-- Without blanks before the next token nothing is passed over. -/
theorem skipBlanks_of_peek {r : Reader} (hspace : r.place.peek ≠ ' ') (hcomment : r.place.peek ≠ '#')
    (hbreak : isBreak r.place.peek = false) (n : Nat) : r.skipBlanks (n + 1) = r := by
  have hplace : (r.place.skipWhile (· == ' ')).skipComment = r.place := by
    have hnone : r.place.span (· == ' ') = ([], r.place) :=
      Place.span_of_peek (beq_eq_false_iff_ne.2 hspace)
    rw [Place.skipWhile, hnone, Place.skipComment, if_neg (by simpa using hcomment)]
  rw [skipBlanks, hplace, hbreak]
  rfl

/-- There are no blanks to be skipped before a word, or before the end. -/
theorem skipBlanks_of_startsLine {r : Reader} (h : StartsLine r.place.rest) (n : Nat) :
    r.skipBlanks (n + 1) = r :=
  skipBlanks_of_peek (h.peek_ne (.inl (by decide)) (by decide)) (h.peek_ne (.inl (by decide)) (by decide))
    h.isBreak_peek n

/-- No block ends at a column that is inside of the innermost one. -/
theorem unwind_of_le {r : Reader} {column : Int} (h : r.indent ≤ column) : r.unwind column = r := by
  have hopen : closeTo column r.outer r = r := by
    cases r.outer with
    | nil => rfl
    | cons i outer => exact if_neg (Int.not_lt.2 h)
  rw [unwind, hopen, ite_self]

/-- Where no token may be a key, none is too far back to be one. -/
theorem dropStale_of_no_keys {r : Reader} (h : r.keys = []) : r.dropStale = .ok r := by
  obtain ⟨place, tokens, flow, indent, outer, keyAllowed, keys⟩ := r
  cases h
  rfl

/-- One token is read, and then the ones behind it. -/
theorem run_succ {r r' r'' : Reader} (hblanks : r.skipBlanks (r.place.rest.length + 1) = r')
    (hkeys : r'.dropStale = .ok r') (hindent : r'.indent ≤ r'.place.column)
    (hend : r'.place.peek ≠ endChar) (htoken : r'.token = .ok r'') (n : Nat) :
    r.run (n + 1) = r''.run n := by
  rw [run, hblanks, hkeys]
  dsimp only [bind, Except.bind]
  rw [unwind_of_le hindent, beq_eq_false_iff_ne.2 hend, if_neg Bool.false_ne_true, htoken]

/-- A word is a plain scalar. -/
theorem token_of_startsLine {r : Reader} (h : StartsLine r.place.rest) (hend : r.place.peek ≠ endChar) :
    r.token = r.plain := by
  -- Any other token starts with one of these characters.
  have hmarks : ∀ d ∈ "-?:,[]\x7b\x7d#&*!|>'\"%@\x60.".toList, (r.place.peek == d) = false := by
    intro d hd
    have hall : ("-?:,[]\x7b\x7d#&*!|>'\"%@\x60.".toList.all fun d =>
        decide ((isWordChar d = false ∨ d = '-') ∧ d ≠ endChar)) = true := by decide
    obtain ⟨hmark, hend⟩ := of_decide_eq_true (List.all_eq_true.1 hall d hd)
    exact beq_eq_false_iff_ne.2 (h.peek_ne hmark hend)
  have hplain : startsPlain r.inFlow r.place = true := by
    have hindicator : "-?:,[]\x7b\x7d#&*!|>'\"%@\x60".toList.contains r.place.peek = false := by
      rw [List.contains_eq_any_beq, List.any_eq_false]
      intro d hd
      rw [hmarks d (List.mem_append_left ['.'] hd)]
      decide
    rw [startsPlain, isBlankOrEnd_of_isWordChar (h.isWordChar_peek hend), hindicator]
    rfl
  unfold token
  simp (disch := decide) only [hmarks, Place.atThree, Bool.false_and, Bool.and_false, Bool.false_or,
    Bool.false_eq_true, if_false, hplain, if_true]

/-- Tokens are put behind all but the latest one. -/
theorem insert_of_cons {r : Reader} {t : Token} {ts : List Token} (h : r.tokens = t :: ts) (us : List Token) :
    r.insert ts.length us = { r with tokens := t :: (us.reverse ++ ts) } := by
  rw [insert, h, List.length_cons, Nat.add_sub_cancel_left]
  rfl

/-- A plain scalar is added where it stands. -/
theorem plain_of_saveKey {r r' : Reader} {cs : List Char} {broken : Bool} {p : Place}
    (hsave : r.saveKey = .ok r')
    (hscalar : plainScalar r'.inFlow (r'.indent + 1) r'.place = (cs, broken, p)) :
    r.plain = .ok ({ r' with keyAllowed := broken, place := p }.push (.scalar (String.ofList cs) true)) := by
  rw [plain, hsave]
  dsimp only [bind, Except.bind]
  rw [hscalar]
  rfl

end Reader

/-! ## The lines of entries -/

/-- What is behind the start of a line. -/
structure LineStart where
  /-- Whether the block of the entries has started. -/
  inBlock : Bool
  /-- The tokens so far, the latest first. -/
  tokens : List Token
  /-- How many characters there are. -/
  index : Nat
  /-- How many lines there are. -/
  line : Nat

namespace LineStart

/-- The reader at the start of a line. -/
def reader (b : LineStart) (cs : List Char) : Reader where
  place := ⟨cs, b.index, b.line, 0⟩
  tokens := b.tokens
  indent := if b.inBlock then 0 else -1
  outer := if b.inBlock then [-1] else []

/-- No column is before the block of entries, or before the text. -/
theorem indent_le (b : LineStart) (column : Nat) : (if b.inBlock then (0 : Int) else -1) ≤ column := by
  cases b.inBlock with
  | false => exact Int.le_trans (show (-1 : Int) ≤ 0 by decide) (Int.natCast_nonneg column)
  | true => exact Int.natCast_nonneg column

/-- The tokens up to the colon of an entry. The block of the entries starts before the first one. -/
def tokensToColon (b : LineStart) (e : Entry) : List Token :=
  .value :: .scalar e.key true :: .key :: if b.inBlock then b.tokens else .blockMapping :: b.tokens

/-- The start of the next line behind that of an entry. -/
def behind (b : LineStart) (e : Entry) : LineStart where
  inBlock := true
  tokens := .scalar e.text true :: b.tokensToColon e
  index := b.index + e.line.length
  line := b.line + 1

end LineStart

namespace Entry

variable (e : Entry)

/-- The tokens of an entry. -/
def tokens : List Token :=
  [.key, .scalar e.key true, .value, .scalar e.text true]

/-- A line goes on with what stands behind it. -/
theorem line_append (rest : List Char) :
    e.line ++ rest = e.key.toList ++ ':' :: ' ' :: (e.text.toList ++ '\n' :: rest) := by
  simp [line]

/-- The line of an entry starts with its key. -/
theorem startsLine_line (rest : List Char) : StartsLine (e.line ++ rest) := by
  rw [line_append]
  exact e.isKey.isWord.startsLine _

/-- The lines of entries start with a key, if there is one. -/
theorem startsLine_lines (es : List Entry) : StartsLine (es.flatMap line) := by
  cases es with
  | nil =>
    intro c hc
    cases hc
  | cons e es => exact e.startsLine_line _

section Steps

variable (b : LineStart) (rest : List Char)

/-- The key of an entry as a token that may be one. -/
def possibleKey : PossibleKey :=
  ⟨b.tokens.length, b.inBlock, ⟨e.line ++ rest, b.index, b.line, 0⟩⟩

/-- The reader behind the key of an entry, which shows to be one at the colon. -/
def atColon : Reader :=
  { b.reader (e.line ++ rest) with
    place := ⟨':' :: ' ' :: (e.text.toList ++ '\n' :: rest), b.index + e.key.toList.length, b.line,
      0 + e.key.toList.length⟩
    tokens := .scalar e.key true :: b.tokens
    keyAllowed := false
    keys := [(0, e.possibleKey b rest)] }

/-- The reader behind the colon of an entry. -/
def atSpace : Reader :=
  { (b.behind e).reader rest with
    place := ⟨' ' :: (e.text.toList ++ '\n' :: rest), b.index + e.key.toList.length + 1, b.line,
      0 + e.key.toList.length + 1⟩
    tokens := b.tokensToColon e
    keyAllowed := false }

/-- The reader before the value of an entry. -/
def atValue : Reader :=
  { e.atSpace b rest with place := (e.atSpace b rest).place.next }

/-- The text does not end at the key of an entry. -/
theorem peek_line_ne_endChar :
    (b.reader (e.line ++ rest)).place.peek ≠ endChar := by
  rw [LineStart.reader, line_append]
  exact e.isKey.isWord.peek_ne_endChar _ _ _ _

/-- Nor does it end at the value. -/
theorem peek_text_ne_endChar : (e.atValue b rest).place.peek ≠ endChar :=
  e.denotes.isWord.peek_ne_endChar _ _ _ _

/-- The value of an entry could start a line. -/
theorem startsLine_text : StartsLine (e.atValue b rest).place.rest :=
  e.denotes.isWord.startsLine _

/-- The key of an entry is read as a plain scalar, which may turn out to be a key. -/
theorem token_key : (b.reader (e.line ++ rest)).token = .ok (e.atColon b rest) := by
  have hsave : (b.reader (e.line ++ rest)).saveKey =
      .ok { b.reader (e.line ++ rest) with keys := [(0, e.possibleKey b rest)] } := by
    obtain ⟨inBlock, ts, index, line⟩ := b
    cases inBlock <;> rfl
  have hscalar : plainScalar false ((if b.inBlock then 0 else -1) + 1)
      ⟨e.line ++ rest, b.index, b.line, 0⟩ = (e.key.toList, false, (e.atColon b rest).place) := by
    rw [line_append]
    exact plainScalar_colon e.isKey.isWord ..
  rw [Reader.token_of_startsLine (e.startsLine_line rest) (e.peek_line_ne_endChar b rest),
    Reader.plain_of_saveKey hsave hscalar, String.ofList_toList]
  rfl

/-- The colon turns the scalar before it into a key. -/
theorem token_colon : (e.atColon b rest).token = .ok (e.atSpace b rest) := by
  have hdash : (e.atColon b rest).place.atThree '-' = false := rfl
  have hdot : (e.atColon b rest).place.atThree '.' = false := rfl
  have hmark : (e.atColon b rest).token = (e.atColon b rest).valueMark := by
    unfold Reader.token
    simp only [hdash, hdot, Bool.and_false]
    rfl
  have hkey : (e.atColon b rest).possibleKey? = some (e.possibleKey b rest) := rfl
  rw [hmark, Reader.valueMark, hkey]
  obtain ⟨inBlock, ts, index, line⟩ := b
  dsimp only [possibleKey]
  -- At the first key the block starts, and at the others only the key.
  cases inBlock with
  | false =>
    rw [Reader.insert_of_cons (show _ = .scalar e.key true :: ts from rfl)]
    rfl
  | true =>
    rw [Reader.insert_of_cons (show _ = .scalar e.key true :: ts from rfl)]
    rfl

/-- The value of an entry is read with the line break behind it. -/
theorem token_value (hrest : StartsLine rest) :
    (e.atValue b rest).token = .ok ((b.behind e).reader rest) := by
  have hsave : (e.atValue b rest).saveKey = .ok (e.atValue b rest) :=
    rfl
  have hscalar : plainScalar false (0 + 1) (e.atValue b rest).place =
      (e.text.toList, true, ⟨rest, b.index + e.line.length, b.line + 1, 0⟩) := by
    have hlength : b.index + e.line.length =
        b.index + e.key.toList.length + 1 + 1 + e.text.toList.length + 1 := by
      simp only [Entry.line, List.length_append, List.length_cons, List.length_nil]
      omega
    rw [hlength]
    exact plainScalar_newline e.denotes.isWord hrest ..
  rw [Reader.token_of_startsLine (e.startsLine_text b rest) (e.peek_text_ne_endChar b rest),
    Reader.plain_of_saveKey hsave hscalar, String.ofList_toList]
  rfl

/-- The key of an entry is not too far before its colon. -/
theorem dropStale_atColon : (e.atColon b rest).dropStale = .ok (e.atColon b rest) := by
  have hlength : e.key.toList.length ≤ maxKeyLength := by
    have hshort := e.isKey.short
    rw [maxSimpleKey] at hshort
    rw [String.length_toList, maxKeyLength]
    omega
  have hfresh : (e.atColon b rest).isStale (e.possibleKey b rest) = false := by
    simp [Reader.isStale, possibleKey, atColon, hlength]
  rw [Reader.dropStale, atColon]
  simp only [atColon] at hfresh
  simp only [List.any_cons, List.any_nil, List.filter_cons, List.filter_nil, hfresh, Bool.false_and,
    Bool.or_false, Bool.false_eq_true, if_false, Bool.not_false, if_true]

/-- There are no blanks to be skipped before the colon. -/
theorem skipBlanks_atColon (n : Nat) : (e.atColon b rest).skipBlanks (n + 1) = e.atColon b rest := by
  have hcolon : (e.atColon b rest).place.peek = ':' := rfl
  refine Reader.skipBlanks_of_peek ?_ ?_ ?_ n
  · rw [hcolon]
    decide
  · rw [hcolon]
    decide
  · rw [hcolon]
    rfl

/-- The space behind a colon is passed over. -/
theorem skipBlanks_atSpace (n : Nat) : (e.atSpace b rest).skipBlanks (n + 1) = e.atValue b rest := by
  have hstart := e.startsLine_text b rest
  have hspace : ((e.atSpace b rest).place.skipWhile (· == ' ')).skipComment =
      (e.atValue b rest).place := by
    have hone : (' ' :: (e.text.toList ++ '\n' :: rest)).takeWhile (· == ' ') = [' '] := by
      obtain ⟨c, cs, hcs⟩ := List.exists_cons_of_ne_nil e.denotes.isWord.ne_nil
      have hc : (c == ' ') = false :=
        beq_eq_false_iff_ne.2 (e.denotes.isWord.ne_of_mem (hcs ▸ List.mem_cons_self) (by decide))
      rw [hcs, List.cons_append, List.takeWhile_cons_of_pos rfl, List.takeWhile_cons, hc]
      rfl
    have hcomment : (e.atValue b rest).place.peek ≠ '#' :=
      hstart.peek_ne (.inl (by decide)) (by decide)
    have hnext : (e.atSpace b rest).place.skipWhile (· == ' ') = (e.atValue b rest).place := by
      rw [Place.skipWhile, Place.span]
      simp only [atSpace, hone]
      rfl
    rw [hnext, Place.skipComment, if_neg (by simpa using hcomment)]
  rw [Reader.skipBlanks, hspace, hstart.isBreak_peek]
  rfl

/-- A line of an entry is read by three steps. -/
theorem run_line (hrest : StartsLine rest) (n : Nat) :
    (b.reader (e.line ++ rest)).run (n + 3) = ((b.behind e).reader rest).run n := by
  have hkey : (b.reader (e.line ++ rest)).run (n + 3) = (e.atColon b rest).run (n + 2) := by
    refine Reader.run_succ (Reader.skipBlanks_of_startsLine (e.startsLine_line rest) _)
      (Reader.dropStale_of_no_keys rfl) ?_ (e.peek_line_ne_endChar b rest) (e.token_key ..) _
    exact b.indent_le _
  have hcolon : (e.atColon b rest).run (n + 2) = (e.atSpace b rest).run (n + 1) := by
    have hend : (e.atColon b rest).place.peek ≠ endChar := show ':' ≠ endChar by decide
    refine Reader.run_succ (e.skipBlanks_atColon ..) (e.dropStale_atColon ..) ?_ hend (e.token_colon ..) _
    exact b.indent_le _
  have hvalue : (e.atSpace b rest).run (n + 1) = ((b.behind e).reader rest).run n := by
    refine Reader.run_succ (e.skipBlanks_atSpace ..) (Reader.dropStale_of_no_keys rfl) ?_
      (e.peek_text_ne_endChar b rest) (e.token_value _ _ hrest) _
    exact Int.natCast_nonneg _
  rw [hkey, hcolon, hvalue]

end Steps

/-- The block ends with the text. -/
theorem run_end {b : LineStart} (hb : b.inBlock = true) (n : Nat) :
    (b.reader []).run (n + 1) = .ok (b.tokens.reverse ++ [.blockEnd]) := by
  have hstart : StartsLine (b.reader []).place.rest := startsLine_lines []
  have hends : (b.reader []).endBlocks =
      .ok { b.reader [] with
        tokens := .blockEnd :: b.tokens, indent := -1, outer := [], keyAllowed := false } := by
    obtain ⟨inBlock, ts, index, line⟩ := b
    cases hb
    rfl
  rw [Reader.run, Reader.skipBlanks_of_startsLine hstart, Reader.dropStale_of_no_keys rfl]
  dsimp only [bind, Except.bind]
  rw [Reader.unwind_of_le (b.indent_le 0), hends]
  exact congrArg Except.ok List.reverse_cons

/-- Inside of the block, the tokens of all entries are added, and the block ends with the text. -/
theorem run_lines {b : LineStart} (hb : b.inBlock = true) (es : List Entry) {n : Nat}
    (hn : 3 * es.length < n) :
    (b.reader (es.flatMap Entry.line)).run n =
      .ok (b.tokens.reverse ++ es.flatMap tokens ++ [.blockEnd]) := by
  induction es generalizing b n with
  | nil =>
    obtain ⟨n, rfl⟩ := Nat.exists_eq_add_one.2 (Nat.zero_lt_of_lt hn)
    rw [List.flatMap_nil, List.flatMap_nil, List.append_nil, run_end hb]
  | cons e es ih =>
    rw [List.length_cons] at hn
    -- Behind the first line the block has started, so the lines behind it only add their own tokens.
    obtain ⟨n, rfl⟩ : ∃ m, n = m + 3 := ⟨n - 3, by omega⟩
    have hbehind : (b.behind e).tokens.reverse = b.tokens.reverse ++ e.tokens := by
      simp [LineStart.behind, LineStart.tokensToColon, hb, tokens]
    rw [List.flatMap_cons, run_line _ _ _ (startsLine_lines es), ih rfl (by omega), hbehind,
      List.flatMap_cons, List.append_assoc b.tokens.reverse]

/-- A line has more characters than steps are needed for it. -/
theorem length_lines_le (es : List Entry) : 3 * es.length ≤ (es.flatMap Entry.line).length := by
  induction es with
  | nil => exact Nat.le_refl 0
  | cons e es ih =>
    have hline : 3 ≤ e.line.length := by
      simp only [Entry.line, List.length_append, List.length_cons, List.length_nil]
      omega
    rw [List.flatMap_cons, List.length_append, List.length_cons]
    omega

/-- The characters of words are ASCII. -/
theorem isDocumentChar_of_isWordChar {c : Char} (h : isWordChar c = true) : isDocumentChar c = true := by
  have hrange : 0x20 ≤ c.toNat ∧ c.toNat ≤ 0x7E := by
    have hle : ∀ {a b : Char}, a ≤ b → a.toNat ≤ b.toNat := fun h => h
    simp only [isWordChar, isDigit, Bool.or_eq_true, Bool.and_eq_true, decide_eq_true_eq, beq_iff_eq] at h
    rcases h with (((⟨hleast, hmost⟩ | ⟨hleast, hmost⟩) | ⟨hleast, hmost⟩) | rfl) | rfl
    · exact ⟨Nat.le_trans (by decide) (hle hleast), Nat.le_trans (hle hmost) (by decide)⟩
    · exact ⟨Nat.le_trans (by decide) (hle hleast), Nat.le_trans (hle hmost) (by decide)⟩
    · exact ⟨Nat.le_trans (by decide) (hle hleast), Nat.le_trans (hle hmost) (by decide)⟩
    · decide
    · decide
  rw [isDocumentChar, decide_eq_true hrange.1, decide_eq_true hrange.2]
  simp only [Bool.and_self, Bool.or_true, Bool.true_or]

/-- The characters of a line are those of its words, the colon and two blanks. -/
theorem mem_line {c : Char} (h : c ∈ e.line) : isWordChar c = true ∨ c = ':' ∨ c = ' ' ∨ c = '\n' := by
  simp only [Entry.line, List.mem_append, List.mem_cons, List.not_mem_nil, or_false] at h
  rcases h with (h | h | h | h) | h
  · exact .inl (e.isKey.isWord.chars c h)
  · exact .inr (.inl h)
  · exact .inr (.inr (.inl h))
  · exact .inl (e.denotes.isWord.chars c h)
  · exact .inr (.inr (.inr h))

/-- The tokens of a document of lines of entries are those of the entries, inside of a block. -/
theorem tokens_lines {es : List Entry} (h : es ≠ []) :
    Yaml.tokens (es.flatMap Entry.line) = .ok (.blockMapping :: es.flatMap tokens ++ [.blockEnd]) := by
  have hchars : (es.flatMap Entry.line).all isDocumentChar = true := by
    rw [List.all_eq_true]
    intro c hc
    obtain ⟨e, -, he⟩ := List.mem_flatMap.1 hc
    rcases e.mem_line he with hword | rfl | rfl | rfl
    · exact isDocumentChar_of_isWordChar hword
    · rfl
    · rfl
    · rfl
  have hmark : ((Place.start (es.flatMap Entry.line)).peek == '\uFEFF') = false :=
    beq_eq_false_iff_ne.2 (StartsLine.peek_ne (startsLine_lines es) (.inl (by decide)) (by decide))
  have hsteps := length_lines_le es
  rw [Yaml.tokens, if_pos hchars]
  dsimp only
  rw [hmark, if_neg Bool.false_ne_true]
  -- The first line starts the block, and the others are inside of it.
  obtain ⟨e, es, rfl⟩ := List.exists_cons_of_ne_nil h
  rw [List.length_cons] at hsteps
  obtain ⟨n, hn⟩ : ∃ n, ((e :: es).flatMap Entry.line).length + 1 = n + 3 :=
    ⟨((e :: es).flatMap Entry.line).length - 2, by omega⟩
  have henough : 3 * es.length < n := by omega
  have hfirst := run_line e ⟨false, [], 0, 0⟩ (es.flatMap Entry.line) (startsLine_lines es) n
  have hothers := run_lines rfl es henough (b := LineStart.behind ⟨false, [], 0, 0⟩ e)
  rw [hn]
  exact hfirst.trans hothers

end Entry

end DiceNotation.Yaml
