import DiceNotation.Proofs.Grammar.Derivation

/-!
# The lexemes of a text

What the lexemes that a text is read into look like: a character of punctuation alone, a run of digits,
or a run of junk. So all but numbers and junk are spelled as their token is (`Genuine.eq_of`), and the
yield of a derivation tree can be compared with the lexemes of a text for equality.
-/

namespace DiceNotation

/-- A character of punctuation is the spelling of its token. -/
theorem Token.symbol_of_ofPunctuation? {c : Char} {t : Token}
    (h : Token.ofPunctuation? c = some t) : t.symbol.toList = [c] := by
  unfold Token.ofPunctuation? at h
  split at h <;> cases h <;> rfl

namespace Lexeme

/-- A lexeme as a text can have it. -/
inductive Genuine : Lexeme → Prop
  /-- Punctuation is one character. -/
  | punctuation {c : Char} {t : Token} (h : Token.ofPunctuation? c = some t) : Genuine ⟨t, [c]⟩
  /-- A number is a run of digits. -/
  | number {cs : List Char} (ne : cs ≠ []) (digits : ∀ c ∈ cs, isDigit c = true) :
      Genuine ⟨.number, cs⟩
  /-- Junk is a run of characters that start no lexeme. -/
  | junk {cs : List Char} (ne : cs ≠ []) (junk : ∀ c ∈ cs, isJunk c = true) : Genuine ⟨.junk, cs⟩

/-- What is read where no blank stands is genuine. -/
theorem genuine_of_first? {cs rest : List Char} {l : Lexeme}
    (hblank : ∀ c ∈ cs.head?, Text.isBlank c = false) (h : first? cs = some (l, rest)) :
    l.Genuine := by
  unfold first? at h
  split at h
  · cases h
  · next c cs =>
    split at h
    · next t ht =>
      cases h
      exact .punctuation ht
    · next hnone =>
      split at h
      · next hd =>
        cases h
        refine .number (List.cons_ne_nil _ _) fun d hmem => ?_
        rcases List.mem_cons.1 hmem with rfl | hmem
        · exact hd
        · exact List.all_eq_true.1 List.all_takeWhile d hmem
      · next hd =>
        cases h
        -- No blank stands here, and the other two kinds of lexemes are ruled out.
        have hfirst : isJunk c = true := by
          rw [isJunk, hblank c rfl, hnone, Bool.eq_false_iff.2 hd]
          rfl
        refine .junk (List.cons_ne_nil _ _) fun d hmem => ?_
        rcases List.mem_cons.1 hmem with rfl | hmem
        · exact hfirst
        · exact List.all_eq_true.1 List.all_takeWhile d hmem

/-- What is read off a text is genuine. -/
theorem genuine_of_read? {cs rest : List Char} {l : Lexeme} (h : read? cs = some (l, rest)) :
    l.Genuine := by
  refine genuine_of_first? (fun c hc => ?_) h
  have hhead := List.head?_dropWhile_not Text.isBlank cs
  rw [Option.mem_def.1 hc] at hhead
  simpa using hhead

/-- The lexemes of a text are genuine. -/
theorem genuine_of_mem_lexemes {cs : List Char} {l : Lexeme} (h : l ∈ lexemes cs) : l.Genuine := by
  induction cs using lexemes.induct with
  | case1 cs hnone =>
    rw [lexemes, hnone] at h
    cases h
  | case2 cs first rest hread ih =>
    rw [lexemes, hread] at h
    rcases List.mem_cons.1 h with rfl | hmem
    · exact genuine_of_read? hread
    · exact ih hmem

namespace Genuine

variable {l : Lexeme}

/-- A genuine lexeme besides numbers and junk is spelled as its token is. -/
theorem eq_of (h : l.Genuine) {t : Token} (ht : l.token = t) (hn : t ≠ .number) (hj : t ≠ .junk) :
    l = .of t := by
  cases h with
  | punctuation hp =>
    rw [← ht, Lexeme.of, Token.symbol_of_ofPunctuation? hp]
  | number ne digits => exact absurd ht.symm hn
  | junk ne chars => exact absurd ht.symm hj

/-- The end of a text is no lexeme of it. -/
theorem token_ne_finish (h : l.Genuine) : l.token ≠ .finish := by
  cases h with
  | @punctuation c t hp =>
    rintro rfl
    unfold Token.ofPunctuation? at hp
    split at hp <;> cases hp
  | number ne digits => exact Token.noConfusion
  | junk ne chars => exact Token.noConfusion

/-- A genuine number has digits only. -/
theorem isDigit_of_mem (h : l.Genuine) (ht : l.token = .number) : ∀ c ∈ l.chars, isDigit c = true := by
  cases h with
  | @punctuation c t hp =>
    have hnot : Token.ofPunctuation? c ≠ some .number := by
      unfold Token.ofPunctuation?
      split <;> simp
    rw [show t = .number from ht] at hp
    exact absurd hp hnot
  | number ne digits => exact digits
  | junk ne chars => cases ht

end Genuine

end Lexeme

end DiceNotation
