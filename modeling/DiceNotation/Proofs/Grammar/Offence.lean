import DiceNotation.Proofs.Grammar.OpenRuns
import DiceNotation.Proofs.Grammar.Runs

/-!
# What can be wrong in a text

The offences of a text against the notation, said of its lexemes and without a parser. A lexeme can be
junk; it can be misplaced, which is to say that with all before it no text of the grammar begins so; it
can be a number that is too large; and it can be a parenthesis that opens too deep a group. The end of
the text can be misplaced too. `FirstOffence` picks the first one from the left, and of several at one
lexeme the one that is listed first, and `Offence.report` is the error that it is reported with.
-/

namespace DiceNotation

open Paren

/-- The kinds of lexemes, with the end of the text behind them. -/
def kinds (ls : List Lexeme) : List Token :=
  ls.map Lexeme.token ++ [.finish]

/-- A text of the grammar whose runs of parentheses close in one piece begins with these tokens, the last
of which may be its end. The size of numbers and the depth of groups do not count. -/
def Viable (ts : List Token) : Prop :=
  ∃ t : Derivation (.chain .sum), RunsClose t.tokens ∧ ts <+: t.tokens ++ [.finish]

/-- Behind these tokens an operand is needed: they do not end with one, which would be a number or a
group. -/
def AwaitsOperand (ts : List Token) : Prop :=
  ts.getLast? ≠ some .number ∧ ts.getLast? ≠ some .closeParen

/-- It is told from the last token whether an operand is awaited. -/
instance (ts : List Token) : Decidable (AwaitsOperand ts) :=
  inferInstanceAs (Decidable (_ ∧ _))

/-- What can be wrong at a place of a text. -/
inductive Offence
  /-- The lexeme is none of the notation. -/
  | junk
  /-- The text cannot go on like this. -/
  | misplaced
  /-- A literal is greater than the greatest one. -/
  | tooLarge
  /-- A run of parentheses stands inside of too many others. -/
  | tooDeep
  deriving DecidableEq, Repr

namespace Offence

/-- Of two offences at one place the one with the lower rank counts. -/
def rank : Offence → Nat
  | junk => 0
  | misplaced => 1
  | tooLarge => 2
  | tooDeep => 3

/-- There is an offence at position `i` of the lexemes, or at their end. -/
def At (ls : List Lexeme) (i : Nat) : Offence → Prop
  | junk => (kinds ls)[i]? = some .junk
  | misplaced => i ≤ ls.length ∧ ¬ Viable ((kinds ls).take (i + 1))
  | tooLarge => ∃ l, ls[i]? = some l ∧ l.token = .number ∧ AwaitsOperand ((kinds ls).take i) ∧
      2 ^ 63 - 1 < digitsValue l.chars
  | tooDeep => StartsRun (kinds ls) i ∧ AwaitsOperand ((kinds ls).take i) ∧
      64 ≤ (openRuns ((kinds ls).take i)).ncard

end Offence

/-- The offence `o` at position `i` is the first one of a text: there is none before, and none at the
same place that is listed earlier. -/
structure FirstOffence (ls : List Lexeme) (i : Nat) (o : Offence) : Prop where
  /-- The offence is there. -/
  offends : o.At ls i
  /-- There is none before. -/
  first : ∀ j, j < i → ∀ o' : Offence, ¬ o'.At ls j
  /-- None at the same place is listed earlier. -/
  earliest : ∀ o' : Offence, o'.rank < o.rank → ¬ o'.At ls i

/-- The lexeme at a position as it is written, and nothing at the end. -/
def textAt (ls : List Lexeme) (i : Nat) : String :=
  (ls[i]?.map Lexeme.text).getD ""

/-- An error that is only reported where no junk follows, which is reported instead. -/
def junkOr (ls : List Lexeme) (e : SyntaxError) : SyntaxError :=
  match ls with
  | [] => e
  | l :: _ => if l.token = .junk then .unexpectedInput l.text else e

/-- The error that an offence at position `i` is reported with. -/
def Offence.report (ls : List Lexeme) (i : Nat) : Offence → SyntaxError
  | junk => .unexpectedInput (textAt ls i)
  | misplaced =>
    if AwaitsOperand ((kinds ls).take i) then
      if i < ls.length then .unexpectedInput (textAt ls i) else .unexpectedEnd
    else if 0 < height ((kinds ls).take i) then .expectedInput ")" (ls[i]?.map Lexeme.text)
    else .unexpectedInput (textAt ls i)
  | tooLarge => junkOr (ls.drop (i + 1))
      (.invalidInteger (textAt ls i) "number too large to fit in target type")
  | tooDeep => junkOr (ls.drop (i + 1)) (.unexpectedInput "(")

/-- A text has only one first offence. -/
theorem FirstOffence.unique {ls : List Lexeme} {i j : Nat} {o o' : Offence} (h : FirstOffence ls i o)
    (h' : FirstOffence ls j o') : i = j ∧ o = o' := by
  have hij : i = j := by
    rcases Nat.lt_trichotomy i j with hlt | heq | hgt
    · exact absurd h.offends (h'.first i hlt o)
    · exact heq
    · exact absurd h'.offends (h.first j hgt o')
  subst hij
  have hrank : o.rank = o'.rank := by
    rcases Nat.lt_trichotomy o.rank o'.rank with hlt | heq | hgt
    · exact absurd h.offends (h'.earliest o hlt)
    · exact heq
    · exact absurd h'.offends (h.earliest o' hgt)
  refine ⟨rfl, ?_⟩
  cases o <;> cases o' <;> first | rfl | cases hrank

end DiceNotation
