import DiceNotation.Proofs.Lexing.Gluing

/-!
# Lexemes by their positions

The lexemes of a text as they are found by position: the first one at the start, and each other one at
or behind the end of the one before it (`spansFrom`). What stands at these positions are the lexemes of
the text in order, with the empty end of the text behind them (`map_spansFrom`). The lemmas on `spanAt`
say where the next lexeme is.
-/

namespace DiceNotation

/-- The characters of a text from the start of a span to its stop. -/
def Span.chars (cs : List Char) (s : Span) : List Char :=
  (cs.take s.stop).drop s.start

/-! ## The next span -/

section

variable {cs : List Char} {pos : Nat}

/-- Where no lexeme follows, the next span is the end of the text. -/
theorem spanAt_of_read?_eq_none (h : Lexeme.read? (cs.drop pos) = none) :
    spanAt cs pos = ⟨.finish, cs.length, cs.length⟩ := by
  rw [Lexeme.read?] at h
  rw [spanAt]
  dsimp only
  rw [h]

/-- The next span is that of the lexeme that follows, which stands there. -/
theorem spanAt_of_read? {l : Lexeme} {rest : List Char}
    (h : Lexeme.read? (cs.drop pos) = some (l, rest)) :
    ∃ start, spanAt cs pos = ⟨l.token, start, start + l.chars.length⟩ ∧ pos ≤ start ∧
      cs.drop start = l.chars ++ rest := by
  rw [Lexeme.read?] at h
  have happend := Lexeme.first?_append h
  have hsuffix : (cs.drop pos).dropWhile Text.isBlank <:+ cs :=
    (List.dropWhile_suffix _).trans (List.drop_suffix pos cs)
  refine ⟨cs.length - ((cs.drop pos).dropWhile Text.isBlank).length, ?_, ?_, ?_⟩
  · rw [spanAt]
    dsimp only
    rw [h]
  · -- A text that goes on behind `pos` is longer than `pos`.
    have hle : ((cs.drop pos).dropWhile Text.isBlank).length ≤ (cs.drop pos).length :=
      (List.dropWhile_sublist _).length_le
    have hpos : 0 < ((cs.drop pos).dropWhile Text.isBlank).length := by
      rw [← happend, List.length_append]
      exact Nat.add_pos_left (List.length_pos_iff.2 (Lexeme.first?_chars_ne_nil h)) _
    rw [List.length_drop] at hle
    omega
  · rw [← List.suffix_iff_eq_drop.1 hsuffix, happend]

/-- What is written at the next span is the lexeme that follows. -/
theorem chars_spanAt_of_read? {l : Lexeme} {rest : List Char}
    (h : Lexeme.read? (cs.drop pos) = some (l, rest)) : (spanAt cs pos).chars cs = l.chars := by
  obtain ⟨start, hspan, -, hdrop⟩ := spanAt_of_read? h
  rw [hspan, Span.chars, ← List.take_drop, hdrop, List.take_left]

/-- Behind the next span is what is left behind the lexeme that follows. -/
theorem drop_stop_of_read? {l : Lexeme} {rest : List Char}
    (h : Lexeme.read? (cs.drop pos) = some (l, rest)) : cs.drop (spanAt cs pos).stop = rest := by
  obtain ⟨start, hspan, -, hdrop⟩ := spanAt_of_read? h
  rw [hspan, ← List.drop_drop, hdrop, List.drop_left]

/-- The token of the next span is that of the lexeme that follows. -/
theorem token_spanAt_of_read? {l : Lexeme} {rest : List Char}
    (h : Lexeme.read? (cs.drop pos) = some (l, rest)) : (spanAt cs pos).token = l.token := by
  obtain ⟨start, hspan, -, -⟩ := spanAt_of_read? h
  rw [hspan]

/-- Behind the next span the lexemes are those that follow the position without the first one. -/
theorem lexemes_drop_stop (cs : List Char) (pos : Nat) :
    lexemes (cs.drop (spanAt cs pos).stop) = (lexemes (cs.drop pos)).tail := by
  rcases hread : Lexeme.read? (cs.drop pos) with _ | ⟨l, rest⟩
  · rw [spanAt_of_read?_eq_none hread, lexemes_of_read?_eq_none hread, List.drop_length, lexemes_nil]
    rfl
  · rw [drop_stop_of_read? hread, lexemes_of_read? hread]
    rfl

/-- The end of the text is found only where no lexeme follows. -/
theorem spanAt_token_eq_finish_iff :
    (spanAt cs pos).token = .finish ↔ Lexeme.read? (cs.drop pos) = none := by
  constructor
  · intro hfinish
    rcases hread : Lexeme.read? (cs.drop pos) with _ | ⟨l, rest⟩
    · rfl
    · rw [token_spanAt_of_read? hread] at hfinish
      exact absurd hfinish (Lexeme.genuine_of_read? hread).token_ne_finish
  · intro hread
    rw [spanAt_of_read?_eq_none hread]

/-- A lexeme ends behind the position from which it is looked for, and within the text. -/
theorem lt_stop_of_token_ne_finish (h : (spanAt cs pos).token ≠ .finish) :
    pos < (spanAt cs pos).stop ∧ (spanAt cs pos).stop ≤ cs.length := by
  rcases hread : Lexeme.read? (cs.drop pos) with _ | ⟨l, rest⟩
  · exact absurd (spanAt_token_eq_finish_iff.2 hread) h
  · obtain ⟨start, hspan, hle, hdrop⟩ := spanAt_of_read? hread
    have hchars := List.length_pos_iff.2 (Lexeme.first?_chars_ne_nil hread)
    have hlength := congrArg List.length hdrop
    rw [List.length_drop, List.length_append] at hlength
    rw [hspan]
    dsimp only
    omega

end

/-! ## All spans -/

/-- The spans of a text from a position on, with that of its end as the last one. -/
def spansFrom (cs : List Char) (pos : Nat) : List Span :=
  if (spanAt cs pos).token = .finish then [spanAt cs pos]
  else spanAt cs pos :: spansFrom cs (spanAt cs pos).stop
termination_by cs.length - pos
decreasing_by
  next h =>
    obtain ⟨hlt, hle⟩ := lt_stop_of_token_ne_finish h
    omega

/-- The spans from a position on are those of the lexemes that follow it. -/
theorem map_spansFrom (cs : List Char) (pos : Nat) :
    (spansFrom cs pos).map (fun s => (s.token, s.chars cs)) =
      (lexemes (cs.drop pos)).map (fun l => (l.token, l.chars)) ++ [(.finish, [])] := by
  induction pos using spansFrom.induct cs with
  | case1 pos hfinish =>
    have hread := spanAt_token_eq_finish_iff.1 hfinish
    rw [spansFrom, if_pos hfinish, spanAt_of_read?_eq_none hread, lexemes_of_read?_eq_none hread]
    simp [Span.chars]
  | case2 pos hfinish ih =>
    rcases hread : Lexeme.read? (cs.drop pos) with _ | ⟨l, rest⟩
    · exact absurd (spanAt_token_eq_finish_iff.2 hread) hfinish
    · rw [spansFrom, if_neg hfinish, List.map_cons, ih, token_spanAt_of_read? hread,
        chars_spanAt_of_read? hread, drop_stop_of_read? hread, lexemes_of_read? hread]
      rfl

end DiceNotation
