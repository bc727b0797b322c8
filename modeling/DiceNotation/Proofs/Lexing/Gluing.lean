import DiceNotation.Proofs.Lexing.Genuine
import Mathlib.Data.List.TakeWhile

/-!
# The lexemes of texts in a row

Where the lexemes of a text are those of its parts. A character that is blank or punctuation ends each
lexeme before it, so the text before it is read as if it ended there (`lexemes_append_cons`); of the text
behind, a blank is passed over and punctuation is a lexeme. A genuine lexeme alone is read as itself
(`Lexeme.Genuine.lexemes_chars`), and with blanks between them so are any lexemes in a row
(`lexemes_intercalate`).
-/

namespace DiceNotation

open Text (isBlank)

/-! ## Characters at which lexemes end -/

/-- A character that belongs to no number and to no junk, so that either ends before it. -/
structure IsBreak (c : Char) : Prop where
  /-- The character is no digit. -/
  not_digit : isDigit c = false
  /-- The character is no junk. -/
  not_junk : isJunk c = false

/-- A digit is not blank. -/
theorem not_isBlank_of_isDigit {c : Char} (h : isDigit c = true) : isBlank c = false := by
  simp only [isDigit, Bool.and_eq_true, decide_eq_true_eq, Char.le_def, UInt32.le_iff_toNat_le] at h
  have hlow : 48 ≤ c.toNat := h.1
  have hhigh : c.toNat ≤ 57 := h.2
  simp only [isBlank, Bool.or_eq_false_iff, Bool.and_eq_false_iff, decide_eq_false_iff_not,
    beq_eq_false_iff_ne]
  omega

/-- A digit is no junk. -/
theorem not_isJunk_of_isDigit {c : Char} (h : isDigit c = true) : isJunk c = false := by
  rw [isJunk, h]
  exact Bool.and_false _

/-- Numbers and junk end before a blank. -/
theorem isBreak_of_isBlank {c : Char} (h : isBlank c = true) : IsBreak c := by
  refine ⟨Bool.eq_false_iff.2 fun hd => ?_, by rw [isJunk, h]; rfl⟩
  rw [not_isBlank_of_isDigit hd] at h
  cases h

/-- Punctuation is not blank. -/
theorem Token.not_isBlank_of_ofPunctuation? {c : Char} {t : Token}
    (h : Token.ofPunctuation? c = some t) : isBlank c = false := by
  unfold Token.ofPunctuation? at h
  split at h <;> first | rfl | cases h

/-- Numbers and junk end before punctuation. -/
theorem isBreak_of_ofPunctuation? {c : Char} {t : Token} (h : Token.ofPunctuation? c = some t) :
    IsBreak c := by
  refine ⟨?_, by rw [isJunk, h]; simp⟩
  unfold Token.ofPunctuation? at h
  split at h <;> first | rfl | cases h

/-! ## Reading in front of a break -/

section

variable {p : Char → Bool} {c : Char}

/-- A run of characters does not go on over one that does not belong to it. -/
theorem takeWhile_append_cons (cs ds : List Char) (h : p c = false) :
    (cs ++ c :: ds).takeWhile p = cs.takeWhile p := by
  rw [List.takeWhile_append, List.takeWhile_cons_of_neg (by simp [h]), List.append_nil]
  split
  · next hlen => exact ((List.takeWhile_sublist p).eq_of_length hlen).symm
  · rfl

/-- What is left behind a run of characters has all of what follows the text. -/
theorem dropWhile_append_cons (cs ds : List Char) (h : p c = false) :
    (cs ++ c :: ds).dropWhile p = cs.dropWhile p ++ c :: ds := by
  rw [List.dropWhile_append, List.dropWhile_cons_of_neg (by simp [h])]
  split
  · next hempty => rw [List.isEmpty_iff.1 hempty, List.nil_append]
  · rfl

end

namespace Lexeme

/-- A lexeme in front of a break is what it is at the end of the text. -/
theorem first?_append_cons {cs rest : List Char} {l : Lexeme} (h : first? cs = some (l, rest))
    {c : Char} (hc : IsBreak c) (ds : List Char) :
    first? (cs ++ c :: ds) = some (l, rest ++ c :: ds) := by
  cases cs with
  | nil => cases h
  | cons d cs =>
    rw [List.cons_append]
    rw [first?] at h ⊢
    -- A break belongs to no run, so the run of the lexeme ends in front of it at the latest.
    rcases ht : Token.ofPunctuation? d with _ | t
    · rw [ht] at h
      dsimp only at h ⊢
      by_cases hd : isDigit d = true
      · rw [if_pos hd] at h
        cases h
        rw [if_pos hd, takeWhile_append_cons cs ds hc.not_digit,
          dropWhile_append_cons cs ds hc.not_digit]
      · rw [if_neg hd] at h
        cases h
        rw [if_neg hd, takeWhile_append_cons cs ds hc.not_junk,
          dropWhile_append_cons cs ds hc.not_junk]
    · rw [ht] at h
      cases h
      rfl

/-- A lexeme in front of a digit is what it is at the end of the text, unless the text in front of the digit
ends with one as well. -/
theorem first?_append_digit {cs rest : List Char} {l : Lexeme} (h : first? cs = some (l, rest))
    (hcs : ∀ c ∈ cs.getLast?, isDigit c = false) {d : Char} (hd : isDigit d = true) (ds : List Char) :
    first? (cs ++ d :: ds) = some (l, rest ++ d :: ds) := by
  cases cs with
  | nil => cases h
  | cons c cs =>
    rw [List.cons_append]
    rw [first?] at h ⊢
    rcases ht : Token.ofPunctuation? c with _ | t
    · rw [ht] at h
      dsimp only at h ⊢
      by_cases hc : isDigit c = true
      · rw [if_pos hc] at h
        cases h
        rw [if_pos hc]
        -- A number that the text starts with ends before its last character, which is no digit.
        rcases List.eq_nil_or_concat cs with rfl | ⟨ys, y, rfl⟩
        · rw [hcs c rfl] at hc
          cases hc
        · have hy : isDigit y = false := hcs y (by
            rw [List.concat_eq_append, ← List.cons_append, List.getLast?_concat]
            rfl)
          simp only [List.concat_eq_append, List.append_assoc, List.singleton_append]
          rw [takeWhile_append_cons ys _ hy, takeWhile_append_cons ys _ hy,
            dropWhile_append_cons ys _ hy, dropWhile_append_cons ys _ hy]
          simp
      · rw [if_neg hc] at h
        cases h
        rw [if_neg hc, takeWhile_append_cons cs ds (not_isJunk_of_isDigit hd),
          dropWhile_append_cons cs ds (not_isJunk_of_isDigit hd)]
    · rw [ht] at h
      cases h
      rfl

/-- Reading a lexeme in front of a break leaves the break and all behind it. -/
theorem read?_append_cons {cs rest : List Char} {l : Lexeme} (h : read? cs = some (l, rest))
    {c : Char} (hc : IsBreak c) (ds : List Char) :
    read? (cs ++ c :: ds) = some (l, rest ++ c :: ds) := by
  have hne : ¬ (cs.dropWhile isBlank).isEmpty = true := by
    intro hempty
    rw [read?, List.isEmpty_iff.1 hempty] at h
    cases h
  rw [read?, List.dropWhile_append, if_neg hne]
  exact first?_append_cons h hc ds

/-- Without a lexeme a text is blank. -/
theorem read?_eq_none_iff {cs : List Char} : read? cs = none ↔ ∀ c ∈ cs, isBlank c = true := by
  rw [← List.dropWhile_eq_nil_iff, read?]
  constructor
  · intro h
    cases hcs : cs.dropWhile isBlank with
    | nil => rfl
    | cons c ds =>
      rw [hcs] at h
      unfold first? at h
      split at h
      · next heq => cases heq
      · split at h
        · cases h
        · split at h <;> cases h
  · intro h
    rw [h]
    rfl

end Lexeme

/-! ## The lexemes of parts -/

/-- The lexemes of a text are the first one and those of what is left behind it. -/
theorem lexemes_of_read? {cs rest : List Char} {l : Lexeme} (h : Lexeme.read? cs = some (l, rest)) :
    lexemes cs = l :: lexemes rest := by
  rw [lexemes, h]

/-- A blank text has no lexemes. -/
theorem lexemes_of_read?_eq_none {cs : List Char} (h : Lexeme.read? cs = none) : lexemes cs = [] := by
  rw [lexemes, h]

/-- Leading blanks are passed over. -/
theorem lexemes_append_of_blank {as : List Char} (h : ∀ c ∈ as, isBlank c = true) (cs : List Char) :
    lexemes (as ++ cs) = lexemes cs := by
  have hread : Lexeme.read? (as ++ cs) = Lexeme.read? cs := by
    rw [Lexeme.read?, List.dropWhile_append, List.dropWhile_eq_nil_iff.2 h]
    rfl
  rw [lexemes, lexemes, hread]

/-- Where a break follows a text, the lexemes of the text are followed by those from the break on. -/
theorem lexemes_append_cons (cs : List Char) {c : Char} (hc : IsBreak c) (ds : List Char) :
    lexemes (cs ++ c :: ds) = lexemes cs ++ lexemes (c :: ds) := by
  induction cs using lexemes.induct with
  | case1 cs hnone =>
    rw [lexemes_append_of_blank (Lexeme.read?_eq_none_iff.1 hnone), lexemes_of_read?_eq_none hnone,
      List.nil_append]
  | case2 cs l rest hread ih =>
    rw [lexemes_of_read? (Lexeme.read?_append_cons hread hc ds), lexemes_of_read? hread, ih,
      List.cons_append]

/-- Where a digit follows a text that does not end with one, the lexemes of the text are followed by those
from the digit on. -/
theorem lexemes_append_digit {cs : List Char} (hcs : ∀ c ∈ cs.getLast?, isDigit c = false) {d : Char}
    (hd : isDigit d = true) (ds : List Char) :
    lexemes (cs ++ d :: ds) = lexemes cs ++ lexemes (d :: ds) := by
  induction cs using lexemes.induct with
  | case1 cs hnone =>
    rw [lexemes_append_of_blank (Lexeme.read?_eq_none_iff.1 hnone), lexemes_of_read?_eq_none hnone,
      List.nil_append]
  | case2 cs l rest hread ih =>
    -- What is left of the text ends as the text does.
    have hlast : ∀ before behind, cs = before ++ behind → ∀ c ∈ behind.getLast?, isDigit c = false := by
      rintro before behind rfl c hc
      refine hcs c ?_
      rw [List.getLast?_append, Option.mem_def.1 hc]
      rfl
    have hparts := (List.takeWhile_append_dropWhile (p := isBlank) (l := cs)).symm
    have hrest := hparts
    rw [← Lexeme.first?_append hread, ← List.append_assoc] at hrest
    have hne : cs.dropWhile isBlank ≠ [] := by
      intro hempty
      rw [Lexeme.read?, hempty] at hread
      cases hread
    have hread' : Lexeme.read? (cs ++ d :: ds) = some (l, rest ++ d :: ds) := by
      rw [Lexeme.read?, List.dropWhile_append, if_neg (by simpa using hne)]
      exact Lexeme.first?_append_digit hread (hlast _ _ hparts) hd ds
    rw [lexemes_of_read? hread', lexemes_of_read? hread, ih (hlast _ _ hrest), List.cons_append]

/-- A blank is no lexeme. -/
theorem lexemes_cons_of_blank {c : Char} (hc : isBlank c = true) (cs : List Char) :
    lexemes (c :: cs) = lexemes cs := by
  have hblank : ∀ b ∈ [c], isBlank b = true := List.forall_mem_singleton.2 hc
  exact lexemes_append_of_blank hblank cs

/-- Punctuation is a lexeme. -/
theorem lexemes_cons_of_punctuation {c : Char} {t : Token} (hc : Token.ofPunctuation? c = some t)
    (cs : List Char) : lexemes (c :: cs) = .of t :: lexemes cs := by
  have hread : Lexeme.read? (c :: cs) = some (.of t, cs) := by
    rw [Lexeme.read?, List.dropWhile_cons_of_neg (by simp [Token.not_isBlank_of_ofPunctuation? hc]),
      Lexeme.first?, hc, Lexeme.of, Token.symbol_of_ofPunctuation? hc]
  exact lexemes_of_read? hread

/-- Where punctuation follows a text, its lexeme stands between those of the text before it and of the text
behind it. -/
theorem lexemes_append_punctuation {c : Char} {t : Token} (hc : Token.ofPunctuation? c = some t)
    (cs ds : List Char) : lexemes (cs ++ c :: ds) = lexemes cs ++ .of t :: lexemes ds := by
  rw [lexemes_append_cons cs (isBreak_of_ofPunctuation? hc), lexemes_cons_of_punctuation hc]

/-- Without characters there are no lexemes. -/
@[simp] theorem lexemes_nil : lexemes [] = [] :=
  lexemes_of_read?_eq_none rfl

/-- Punctuation that is repeated is a row of lexemes. -/
theorem lexemes_replicate_append {c : Char} {t : Token} (hc : Token.ofPunctuation? c = some t) (d : Nat)
    (cs : List Char) :
    lexemes (List.replicate d c ++ cs) = List.replicate d (.of t) ++ lexemes cs := by
  induction d with
  | zero => rfl
  | succ d ih =>
    rw [List.replicate_succ, List.cons_append, lexemes_cons_of_punctuation hc, ih]
    rfl

/-- Digits in front of a text are read as one number with the digits that the text starts with. -/
theorem lexemes_digits_append {ds : List Char} (hne : ds ≠ []) (hd : ∀ c ∈ ds, isDigit c = true)
    (b : List Char) :
    lexemes (ds ++ b) = ⟨.number, ds ++ b.takeWhile isDigit⟩ :: lexemes (b.dropWhile isDigit) := by
  obtain ⟨c, cs, rfl⟩ := List.exists_cons_of_ne_nil hne
  obtain ⟨hc, hcs⟩ := List.forall_mem_cons.1 hd
  -- A digit is no punctuation, which numbers end at.
  have hnone : Token.ofPunctuation? c = none := by
    rcases hp : Token.ofPunctuation? c with _ | t
    · rfl
    · rw [(isBreak_of_ofPunctuation? hp).not_digit] at hc
      cases hc
  refine lexemes_of_read? ?_
  rw [Lexeme.read?, List.cons_append,
    List.dropWhile_cons_of_neg (by simp [not_isBlank_of_isDigit hc]), Lexeme.first?, hnone]
  dsimp only
  rw [if_pos hc, List.takeWhile_append_of_pos hcs, List.dropWhile_append_of_pos hcs]
  rfl

/-! ## Lexemes in a row -/

/-- A genuine lexeme is read as itself. -/
theorem Lexeme.Genuine.lexemes_chars {l : Lexeme} (h : l.Genuine) : lexemes l.chars = [l] := by
  cases h with
  | punctuation hc =>
    rw [lexemes_cons_of_punctuation hc, lexemes_nil, Lexeme.of, Token.symbol_of_ofPunctuation? hc]
  | @number cs ne digits =>
    have hnumber := lexemes_digits_append ne digits []
    rwa [List.append_nil, List.takeWhile_nil, List.append_nil, List.dropWhile_nil, lexemes_nil] at hnumber
  | @junk cs ne junk =>
    cases cs with
    | nil => exact absurd rfl ne
    | cons c cs =>
      obtain ⟨hc, hcs⟩ := List.forall_mem_cons.1 junk
      have hread : Lexeme.read? (c :: cs) = some (⟨.junk, c :: cs⟩, []) := by
        simp only [isJunk, Bool.and_eq_true, Bool.not_eq_true', Option.isNone_iff_eq_none] at hc
        obtain ⟨⟨hblank, hnone⟩, hdigit⟩ := hc
        rw [Lexeme.read?, List.dropWhile_cons_of_neg (by simp [hblank]), Lexeme.first?, hnone]
        dsimp only
        rw [if_neg (by simp [hdigit]), List.takeWhile_eq_self_iff.2 hcs,
          List.dropWhile_eq_nil_iff.2 hcs]
      rw [lexemes_of_read? hread, lexemes_nil]

/-- A genuine lexeme with blanks around it is read as itself. -/
theorem Lexeme.Genuine.lexemes_padded {l : Lexeme} (h : l.Genuine) {as bs : List Char}
    (ha : ∀ c ∈ as, isBlank c = true) (hb : ∀ c ∈ bs, isBlank c = true) :
    lexemes (as ++ l.chars ++ bs) = [l] := by
  rw [List.append_assoc, lexemes_append_of_blank ha]
  cases bs with
  | nil => rw [List.append_nil, h.lexemes_chars]
  | cons b bs =>
    have hnone : lexemes (b :: bs) = [] := lexemes_of_read?_eq_none (Lexeme.read?_eq_none_iff.2 hb)
    rw [lexemes_append_cons l.chars (isBreak_of_isBlank (hb b List.mem_cons_self)), h.lexemes_chars,
      hnone, List.append_nil]

/-- A genuine lexeme in front of a blank is read first, whatever the texts behind the blank are. -/
theorem Lexeme.Genuine.lexemes_intercalate_cons {l : Lexeme} (h : l.Genuine) {b : Char}
    (hb : isBlank b = true) {css : List (List Char)} (hne : css ≠ []) :
    lexemes ([b].intercalate (l.chars :: css)) = l :: lexemes ([b].intercalate css) := by
  obtain ⟨cs, css, rfl⟩ := List.exists_cons_of_ne_nil hne
  rw [List.intercalate_cons_cons, List.append_assoc, List.singleton_append,
    lexemes_append_cons l.chars (isBreak_of_isBlank hb), lexemes_cons_of_blank hb, h.lexemes_chars,
    List.singleton_append]

/-- Genuine lexemes with a blank between each two of them are read as themselves, also where two numbers
or two runs of junk follow each other. Texts without lexemes may stand behind them. -/
theorem lexemes_intercalate {ls : List Lexeme} (h : ∀ l ∈ ls, l.Genuine) {b : Char}
    (hb : isBlank b = true) {ends : List (List Char)} (hends : lexemes ([b].intercalate ends) = []) :
    lexemes ([b].intercalate (ls.map Lexeme.chars ++ ends)) = ls := by
  induction ls with
  | nil => exact hends
  | cons l ls ih =>
    obtain ⟨hl, hls⟩ := List.forall_mem_cons.1 h
    rw [List.map_cons, List.cons_append]
    by_cases hnil : ls.map Lexeme.chars ++ ends = []
    · obtain ⟨hmap, rfl⟩ := List.append_eq_nil_iff.1 hnil
      obtain rfl := List.map_eq_nil_iff.1 hmap
      rw [hnil, List.intercalate_singleton, hl.lexemes_chars]
    · rw [hl.lexemes_intercalate_cons hb hnil, ih hls]

end DiceNotation
