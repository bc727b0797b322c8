import DiceNotation.Proofs.Yaml.Writing
import Mathlib.Data.List.TakeWhile

/-!
# Numerals in documents

A natural number is written in a document by its decimal digits. As a plain scalar these look like an
integer and like nothing else (`ofPlain_numeral`), and as an integer they denote the number again, as
long as there are no more than are read (`integer_numeral`). A numeral that starts with a zero would be
one to base eight, and one with a colon to base sixty; the digits of a number have no zero before others
and no colon. So a numeral is a word that denotes the number (`denotes_numeral`).
-/

namespace DiceNotation.Yaml

/-- The digits are the characters from `0` to `9` by their codes. -/
theorem isDigit_iff {c : Char} : isDigit c = true ↔ 48 ≤ c.toNat ∧ c.toNat ≤ 57 := by
  rw [isDigit, Bool.and_eq_true, decide_eq_true_eq, decide_eq_true_eq]
  rfl

/-! ## The digits of a number -/

/-- The digits of a number. -/
def numeral (n : Nat) : List Char :=
  Nat.toDigits 10 n

/-- A numeral has nothing but digits. -/
theorem isDigit_of_mem_numeral {n : Nat} {c : Char} (h : c ∈ numeral n) : isDigit c = true := by
  have hdigit := Nat.isDigit_of_mem_toDigits (by decide) (by decide) h
  rw [Char.isDigit, Bool.and_eq_true, decide_eq_true_eq, decide_eq_true_eq] at hdigit
  exact isDigit_iff.2 hdigit

/-- The digits of a number that is not zero start with another one than zero. -/
theorem numeral_eq_cons (n : Nat) :
    (n = 0 ∧ numeral n = ['0']) ∨ ∃ c cs, c ≠ '0' ∧ numeral n = c :: cs := by
  induction n using Nat.strongRecOn with
  | ind n ih =>
    rcases Nat.lt_or_ge n 10 with hlt | hge
    · rw [numeral, Nat.toDigits_of_lt_base hlt]
      by_cases h0 : n = 0
      · exact .inl ⟨h0, by rw [h0]; rfl⟩
      · exact .inr ⟨n.digitChar, [], by simpa using h0, rfl⟩
    · rw [numeral, Nat.toDigits_of_base_le (by decide) hge]
      rcases ih (n / 10) (by omega) with ⟨hzero, -⟩ | ⟨c, cs, hc, hcs⟩
      · omega
      · rw [numeral] at hcs
        exact .inr ⟨c, cs ++ [(n % 10).digitChar], hc, by rw [hcs]; rfl⟩

/-- Digits are none of the characters that mean something else in a scalar. -/
theorem not_mem_numeral {n : Nat} {c : Char} (h : isDigit c = false) : c ∉ numeral n := by
  intro hmem
  rw [isDigit_of_mem_numeral hmem] at h
  cases h

/-- A numeral does not start with any other character than a digit. -/
theorem numeral_ne_cons {n : Nat} {c : Char} {cs : List Char} (h : isDigit c = false) :
    numeral n ≠ c :: cs := by
  intro heq
  exact not_mem_numeral h (heq ▸ List.mem_cons_self)

/-! ## The look of a numeral -/

/-- A numeral has no sign to be dropped. -/
theorem dropSign_numeral (n : Nat) : dropSign (numeral n) = numeral n := by
  unfold dropSign
  split
  · next h => exact absurd h (numeral_ne_cons (by decide))
  · next h => exact absurd h (numeral_ne_cons (by decide))
  · rfl

/-- Without a point there is no fraction. -/
theorem looksFraction_numeral (n : Nat) : looksFraction (numeral n) = false := by
  have hpoint : (numeral n).dropWhile (· != '.') = [] := by
    rw [List.dropWhile_eq_nil_iff]
    intro c hc
    rw [bne_iff_ne]
    rintro rfl
    exact not_mem_numeral (by decide) hc
  unfold looksFraction
  dsimp only
  rw [dropSign_numeral, hpoint]

/-- A numeral looks like an integer. -/
theorem looksInteger_numeral (n : Nat) : looksInteger (numeral n) = true := by
  unfold looksInteger
  dsimp only
  rw [dropSign_numeral]
  rcases numeral_eq_cons n with ⟨-, hzero⟩ | ⟨c, cs, hc, hcs⟩
  · rw [hzero]
    rfl
  · have hdigit : isDigit c = true := isDigit_of_mem_numeral (n := n) (by rw [hcs]; exact List.mem_cons_self)
    have hrest : cs.all isDigitMark = true := by
      rw [List.all_eq_true]
      intro d hd
      have := isDigit_of_mem_numeral (n := n) (c := d) (by rw [hcs]; exact List.mem_cons_of_mem _ hd)
      rw [isDigitMark, this, Bool.true_or]
    rw [hcs]
    split
    · rfl
    · next h => exact absurd (List.cons.inj h).1 hc
    · next h => exact absurd (List.cons.inj h).1 hc
    · next h => exact absurd (List.cons.inj h).1 hc
    · simp [isDigits, hdigit, hc, hrest]

/-- The names of truth values have letters. -/
theorem not_mem_truthNames (n : Nat) : String.ofList (numeral n) ∉ truthNames := by
  intro hmem
  have hletters : (truthNames.all fun s => s.toList.any fun c => !isDigit c) = true := by decide
  obtain ⟨c, hc, hletter⟩ := List.any_eq_true.1 (List.all_eq_true.1 hletters _ hmem)
  rw [String.toList_ofList] at hc
  rw [Bool.not_eq_true'] at hletter
  exact not_mem_numeral hletter hc

/-- A numeral is an integer by its look. -/
theorem ofPlain_numeral (n : Nat) : Tag.ofPlain (String.ofList (numeral n)) = .int := by
  have htruth : truthNames.contains (String.ofList (numeral n)) = false := by
    rw [← Bool.not_eq_true, List.contains_iff_mem]
    exact not_mem_truthNames n
  rw [Tag.ofPlain, String.toList_ofList, htruth, looksFraction_numeral, looksInteger_numeral]
  rfl

/-! ## The value of a numeral -/

/-- A digit has its value in base ten. -/
theorem digitValue?_of_isDigit {c : Char} (h : isDigit c = true) :
    Number.digitValue? 10 c = some (c.toNat - 48) := by
  have hrange := isDigit_iff.1 h
  rw [isDigit] at h
  rw [Number.digitValue?, if_pos h]
  exact Option.filter_eq_some_iff.2 ⟨rfl, by simp only [decide_eq_true_eq]; omega⟩

/-- Digits are all read, each at its place. -/
theorem readDigits_of_isDigit {cs : List Char} (h : ∀ c ∈ cs, isDigit c = true) (value count : Nat) :
    Number.readDigits 10 value count cs = (Nat.ofDigitChars 10 cs value, count + cs.length, []) := by
  induction cs generalizing value count with
  | nil => rfl
  | cons c cs ih =>
    unfold Number.readDigits
    rw [digitValue?_of_isDigit (h c List.mem_cons_self)]
    dsimp only
    rw [ih fun d hd => h d (List.mem_cons_of_mem _ hd), Nat.ofDigitChars_cons, List.length_cons,
      Nat.add_assoc, Nat.add_comm 1]
    rfl

/-- A digit is no blank. -/
theorem not_isBlank_of_isDigit {c : Char} (h : isDigit c = true) : Text.isBlank c = false := by
  obtain ⟨hle, hge⟩ := isDigit_iff.1 h
  unfold Text.isBlank
  simp
  omega

/-- There are no blanks at the ends of digits. -/
theorem trim_of_isDigit {cs : List Char} (h : ∀ c ∈ cs, isDigit c = true) : Number.trim cs = cs := by
  have hkeep : ∀ ds : List Char, (∀ c ∈ ds, isDigit c = true) → ds.dropWhile Text.isBlank = ds := by
    intro ds hds
    rw [List.dropWhile_eq_self_iff]
    intro hl
    rw [not_isBlank_of_isDigit (hds _ (List.getElem_mem hl))]
    decide
  rw [Number.trim, hkeep cs h, hkeep cs.reverse fun c hc => h c (List.mem_reverse.1 hc),
    List.reverse_reverse]

/-- A numeral is read as the number in base ten. -/
theorem readInt?_numeral (n : Nat) : Number.readInt? 10 (numeral n) = some (n : Int) := by
  have hdigits : ∀ c ∈ numeral n, isDigit c = true := fun c => isDigit_of_mem_numeral
  have hsign : Number.readSign (numeral n) = (false, numeral n) := by
    unfold Number.readSign
    split
    · next h => exact absurd h (numeral_ne_cons (by decide))
    · next h => exact absurd h (numeral_ne_cons (by decide))
    · rfl
  have hvalue : Nat.ofDigitChars 10 (numeral n) 0 = n := Nat.ofDigitChars_ten_toDigits
  have hlength : (numeral n).length ≠ 0 := Nat.ne_of_gt Nat.length_toDigits_pos
  have hread := readDigits_of_isDigit hdigits 0 0
  rw [hvalue, Nat.zero_add] at hread
  unfold Number.readInt?
  rw [trim_of_isDigit hdigits, hsign]
  dsimp only
  -- Base ten has no mark, so all characters are read as digits.
  split
  · next value count hdone =>
    have hsame : (value, count, ([] : List Char)) = (n, (numeral n).length, []) := by
      rw [← hdone, ← hread]
      split <;> rfl
    obtain ⟨rfl, hcount⟩ := Prod.mk.inj hsame
    obtain ⟨rfl, -⟩ := Prod.mk.inj hcount
    exact if_neg hlength
  · next hleft =>
    refine (hleft n (numeral n).length ?_).elim
    rw [← hread]
    split <;> rfl

/-- A numeral has no underscores and no sign. -/
theorem numberText_numeral (n : Nat) : numberText (numeral n) = .ok (false, numeral n) := by
  have hmarks : (numeral n).filter (· != '_') = numeral n := by
    rw [List.filter_eq_self]
    intro c hc
    rw [bne_iff_ne]
    rintro rfl
    exact not_mem_numeral (by decide) hc
  unfold numberText
  rw [hmarks]
  split
  · next h => exact absurd h Nat.toDigits_ne_nil
  · next h => exact absurd h (numeral_ne_cons (by decide))
  · next h => exact absurd h (numeral_ne_cons (by decide))
  · rfl

/-- A numeral of no more digits than are converted is its number in base ten. -/
theorem integerIn_numeral {n : Nat} (h : (numeral n).length ≤ maxDigits) :
    integerIn 10 (numeral n) = .ok (n : Int) := by
  have hdigits : (numeral n).filter isDigit = numeral n :=
    List.filter_eq_self.2 fun c => isDigit_of_mem_numeral
  unfold integerIn
  rw [readInt?_numeral, hdigits]
  dsimp only
  rw [if_neg (by simp; omega)]

/-- A numeral of no more digits than are read is the integer that it was written for. -/
theorem integer_numeral {n : Nat} (h : (numeral n).length ≤ maxDigits) :
    integer (numeral n) = .ok (n : Int) := by
  have hcolon : (numeral n).contains ':' = false := by
    rw [← Bool.not_eq_true, List.contains_iff_mem]
    exact not_mem_numeral (by decide)
  have hdecimal := integerIn_numeral h
  unfold integer
  rw [numberText_numeral]
  rcases numeral_eq_cons n with ⟨rfl, hzero⟩ | ⟨c, cs, hc, hcs⟩
  · rw [hzero]
    rfl
  · -- Behind another digit than zero the number is in base ten.
    rw [hcs] at hdecimal hcolon ⊢
    dsimp only [bind, Except.bind]
    split
    · next h => cases h
    · next h => exact absurd (List.cons.inj h).1 hc
    · next h => exact absurd (List.cons.inj h).1 hc
    · next h => exact absurd (List.cons.inj h).1 hc
    · next h => exact absurd (List.cons.inj h).1 hc
    · rw [hcolon, hdecimal]
      rfl

/-! ## Words -/

/-- A numeral is a word. -/
theorem isWord_numeral (n : Nat) : IsWord (numeral n) where
  ne_nil := Nat.toDigits_ne_nil
  chars := by
    intro c hc
    rw [isWordChar, isDigit_of_mem_numeral hc]
    rfl
  head := by
    intro hdash
    obtain ⟨cs, hcs⟩ := List.head?_eq_some_iff.1 hdash
    exact numeral_ne_cons (by decide) hcs

/-- A numeral denotes its number. -/
theorem denotes_numeral {n : Nat} (h : (numeral n).length ≤ maxDigits) :
    Denotes (String.ofList (numeral n)) (.int n) where
  isWord := by
    rw [String.toList_ofList]
    exact isWord_numeral n
  data := by
    rw [ofPlain_numeral, scalarData, String.toList_ofList, integer_numeral h]
    rfl

/-- Nothing has a word that denotes it. -/
theorem denotes_null : Denotes "null" .null where
  isWord := by decide
  data := by
    have htag : Tag.ofPlain "null" = .null := by decide
    rw [htag]
    rfl

end DiceNotation.Yaml
