import DiceNotation.Proofs.Lexing.Layout

/-!
# Reading a part of a text

What is read at a place depends on the text from there on only. The next span from a position is the first
one of the text behind it, shifted by the position, and so is each span after that (`spansFrom_add`), also
where the position is inside of a number or of junk, which then begins there. And where punctuation or a
blank stands between two texts, neither of them has a part in what is read of the other
(`slices_locality`).
-/

namespace DiceNotation

/-! ## Positions -/

/-- A span moved on by some positions. -/
def Span.shift (s : Span) (n : Nat) : Span :=
  ⟨s.token, s.start + n, s.stop + n⟩

section

variable {cs : List Char} {p : Nat}

/-- The next span in the text behind a position is that of the text. -/
theorem spanAt_add (hp : p ≤ cs.length) (q : Nat) :
    spanAt cs (p + q) = (spanAt (cs.drop p) q).shift p := by
  have hle : (((cs.drop p).drop q).dropWhile Text.isBlank).length ≤ ((cs.drop p).drop q).length :=
    (List.dropWhile_sublist _).length_le
  rw [List.length_drop, List.length_drop] at hle
  rw [spanAt, spanAt, ← List.drop_drop]
  dsimp only
  split
  · rw [Span.shift, List.length_drop, Nat.sub_add_cancel hp]
  · rw [Span.shift, List.length_drop]
    congr 1 <;> dsimp only <;> omega

/-- The spans in the text behind a position are those of the text. -/
theorem spansFrom_add (hp : p ≤ cs.length) (q : Nat) :
    spansFrom cs (p + q) = (spansFrom (cs.drop p) q).map (·.shift p) := by
  induction q using spansFrom.induct (cs.drop p) with
  | case1 q hfinish =>
    have hspan := spanAt_add hp q
    have hfinish' : (spanAt cs (p + q)).token = .finish := by rw [hspan]; exact hfinish
    rw [spansFrom, if_pos hfinish', spansFrom, if_pos hfinish, hspan]
    rfl
  | case2 q hfinish ih =>
    have hspan := spanAt_add hp q
    have hfinish' : (spanAt cs (p + q)).token ≠ .finish := by rw [hspan]; exact hfinish
    -- Reading goes on where the span stops, which in the whole text is the shifted place.
    have hstop : (spanAt cs (p + q)).stop = p + (spanAt (cs.drop p) q).stop := by
      rw [hspan, Nat.add_comm]
      rfl
    rw [spansFrom, if_neg hfinish', hstop, ih, hspan]
    conv_rhs => rw [spansFrom, if_neg hfinish]
    rfl

/-- Past the end of a text there is only its end. -/
theorem spanAt_of_length_le (hp : cs.length ≤ p) : spanAt cs p = ⟨.finish, cs.length, cs.length⟩ := by
  refine spanAt_of_read?_eq_none ?_
  rw [List.drop_eq_nil_iff.2 hp]
  rfl

end

/-! ## Texts on both sides of a character -/

/-- Without the end of the text, its slices are those of its lexemes. -/
theorem dropLast_slices (text : String) :
    (slices text).dropLast = (lexemes text.toList).map fun l => (l.token, l.text) := by
  rw [slices_eq, List.dropLast_concat]

/-- Around punctuation the slices of two texts are what they are apart. -/
theorem slices_append_punctuation (a b : String) {c : Char} {t : Token}
    (hc : Token.ofPunctuation? c = some t) :
    slices (a ++ String.singleton c ++ b) =
      (slices a).dropLast ++ (t, String.singleton c) :: slices b := by
  have hchars : (a ++ String.singleton c ++ b).toList = a.toList ++ c :: b.toList := by simp
  have htext : (Lexeme.of t).text = String.singleton c := by
    rw [Lexeme.text, Lexeme.of, Token.symbol_of_ofPunctuation? hc, String.singleton_eq_ofList]
  rw [dropLast_slices, slices_eq, slices_eq b, hchars, lexemes_append_punctuation hc, List.map_append,
    List.map_cons, htext, Lexeme.token_of, List.append_assoc, List.cons_append]

/-- Around a blank the slices of two texts are what they are apart. -/
theorem slices_append_blank (a b : String) {c : Char} (hc : Text.isBlank c = true) :
    slices (a ++ String.singleton c ++ b) = (slices a).dropLast ++ slices b := by
  have hchars : (a ++ String.singleton c ++ b).toList = a.toList ++ c :: b.toList := by simp
  rw [dropLast_slices, slices_eq, slices_eq b, hchars, lexemes_append_cons _ (isBreak_of_isBlank hc),
    lexemes_cons_of_blank hc, List.map_append, List.append_assoc]

/-- Around a character of punctuation or a blank, a text has the tokens and slices of the two texts that
it stands between, without the end of the first one, and with the punctuation between them. From a
position in a text on, the next span is the first one of the text behind it, shifted by the position, and
all later spans are those that follow there. From a position past the text on there is only its end. -/
theorem slices_locality :
    (∀ (a b : String) (c : Char),
      slices a = (slices a).dropLast ++ [(.finish, "")] ∧
      (∀ t, Token.ofPunctuation? c = some t →
        slices (a ++ String.singleton c ++ b) =
          (slices a).dropLast ++ (t, String.singleton c) :: slices b) ∧
      (Text.isBlank c = true →
        slices (a ++ String.singleton c ++ b) = (slices a).dropLast ++ slices b)) ∧
    ∀ (cs : List Char) (p : Nat),
      (p ≤ cs.length → spanAt cs p = (spanAt (cs.drop p) 0).shift p ∧
        spansFrom cs p = (spansFrom (cs.drop p) 0).map (·.shift p)) ∧
      (cs.length < p → spanAt cs p = ⟨.finish, cs.length, cs.length⟩) := by
  refine ⟨fun a b c => ⟨?_, fun t hc => slices_append_punctuation a b hc, slices_append_blank a b⟩,
    fun cs p => ⟨fun hp => ⟨spanAt_add hp 0, spansFrom_add hp 0⟩, fun hp => ?_⟩⟩
  · rw [dropLast_slices, slices_eq]
  · exact spanAt_of_length_le (Nat.le_of_lt hp)

/-- The digits of `12d34` are cut by the letter, and behind its first digit the text begins with the
number 2. -/
theorem slices_locality_dice :
    slices ("12" ++ String.singleton 'd' ++ "34") =
        (slices "12").dropLast ++ (.dice, String.singleton 'd') :: slices "34" ∧
      slices ("1" ++ String.singleton ' ' ++ "2") = (slices "1").dropLast ++ slices "2" ∧
      spanAt ['1', '2', 'd', '3', '4'] 1 = ⟨.number, 1, 2⟩ ∧
      spanAt ['1', '2', 'd', '3', '4'] 9 = ⟨.finish, 5, 5⟩ := by
  obtain ⟨htexts, hpositions⟩ := slices_locality
  refine ⟨(htexts "12" "34" 'd').2.1 .dice rfl, (htexts "1" "2" ' ').2.2 rfl, ?_, ?_⟩
  · exact ((hpositions ['1', '2', 'd', '3', '4'] 1).1 (by decide)).1
  · exact (hpositions ['1', '2', 'd', '3', '4'] 9).2 (by decide)

end DiceNotation
