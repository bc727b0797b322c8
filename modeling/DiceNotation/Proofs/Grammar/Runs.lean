import DiceNotation.Proofs.Grammar.Derivation
import DiceNotation.Proofs.Grammar.Parentheses

/-!
# The parentheses of a derivation tree

The yield of a derivation tree is balanced, and the parentheses that match in it are those that one
node of the tree puts around its body. So what `RunsClose` and `RunsNestBelow` say of the positions of
the yield can be read off the tree: a body that starts with a parenthesis has to be a group itself
(`runsClose_tokens_iff`), and the runs that stand around each other are the nested groups of the
expression (`runsNestBelow_tokens_iff`).
-/

namespace DiceNotation

open Paren

/-- How many groups of an expression are nested in each other at most. -/
def Expr.nesting : Expr → Nat
  | literal _ => 0
  | group _ e => e.nesting + 1
  | die s => s.nesting
  | dice t s => max t.nesting s.nesting
  | negate e => e.nesting
  | arith _ l r => max l.nesting r.nesting

/-- One more pair of parentheses is part of the run of a group. -/
theorem Expr.nesting_wrap_of_isGroup {e : Expr} (h : e.IsGroup) : e.wrap.nesting = e.nesting := by
  obtain ⟨n, body, rfl⟩ := h
  rfl

/-- Parentheses around what is no group nest it one deeper. -/
theorem Expr.nesting_wrap_of_not_isGroup {e : Expr} (h : ¬ e.IsGroup) :
    e.wrap.nesting = e.nesting + 1 := by
  rcases e.wrap_cases with ⟨n, body, rfl, -⟩ | ⟨-, he⟩
  · exact absurd ⟨n, body, rfl⟩ h
  · rw [he]
    rfl

/-- Parentheses make a group. -/
theorem Expr.isGroup_wrap (e : Expr) : e.wrap.IsGroup := by
  rcases e.wrap_cases with ⟨n, body, -, he⟩ | ⟨-, he⟩
  · exact ⟨n + 1, body, he⟩
  · exact ⟨0, e, he⟩

/-- No operator is written with a parenthesis that opens. -/
theorem Arith.token_ne_open (op : Arith) : op.token ≠ .openParen := by
  cases op <;> decide

/-- No operator is written with a parenthesis that closes. -/
theorem Arith.token_ne_close (op : Arith) : op.token ≠ .closeParen := by
  cases op <;> decide

namespace Derivation

variable {s : Nonterminal}

/-- The kinds of the lexemes of a tree. -/
def tokens (t : Derivation s) : List Token :=
  t.yield.map Lexeme.token

/-- A number is one token. -/
@[simp] theorem tokens_number (ds : List Char) : (number ds).tokens = [.number] := rfl

/-- A group stands between its parentheses. -/
@[simp] theorem tokens_paren (b : Derivation (.chain .sum)) :
    (paren b).tokens = .openParen :: (b.tokens ++ [.closeParen]) := by
  simp [tokens, yield]

/-- A primary on its own has its tokens. -/
@[simp] theorem tokens_bare (p : Derivation .primary) : (bare p).tokens = p.tokens := rfl

/-- A single die is written with the token for dice before its sides. -/
@[simp] theorem tokens_die (p : Derivation .primary) : (die p).tokens = [.dice] ++ p.tokens := rfl

/-- Dice are written with their token between the number and the sides. -/
@[simp] theorem tokens_dice (p q : Derivation .primary) :
    (dice p q).tokens = p.tokens ++ ([.dice] ++ q.tokens) := by
  simp [tokens, yield]

/-- An operand without a sign has its tokens. -/
@[simp] theorem tokens_plain (b : Derivation .dice) : (plain b).tokens = b.tokens := rfl

/-- An operand with a sign has it before its tokens. -/
@[simp] theorem tokens_negated (b : Derivation .dice) :
    (negated b).tokens = [.minus] ++ b.tokens := rfl

/-- A chain of one operand has its tokens. -/
@[simp] theorem tokens_single {l : Level} (x : Derivation l.operand) :
    (single x).tokens = x.tokens := rfl

/-- A longer chain has an operator before its last operand. -/
@[simp] theorem tokens_joined {l : Level} (x : Derivation (.chain l)) (op : Arith)
    (h : op.level = l) (y : Derivation l.operand) :
    (joined x op h y).tokens = x.tokens ++ ([op.token] ++ y.tokens) := by
  simp [tokens, yield]

/-- A tree has leaves. -/
theorem tokens_pos (t : Derivation s) : 0 < t.tokens.length := by
  induction t with
  | number ds => exact Nat.zero_lt_one
  | bare p ih => exact ih
  | plain b ih => exact ih
  | single x ih => exact ih
  | paren b ih => simp
  | die p ih => simp
  | dice p q ihp ihq => simp
  | negated b ih => simp
  | joined x op _ y ihx ihy => simp

/-- The letter of dice is no parenthesis. -/
theorem balanced_dice : Balanced [Token.dice] :=
  balanced_other (by decide) (by decide)

/-- The yield of a tree closes all that it opens. -/
theorem balanced_tokens (t : Derivation s) : Balanced t.tokens := by
  induction t with
  | number ds =>
    rw [tokens_number]
    exact balanced_other (by decide) (by decide)
  | paren b ih => rw [tokens_paren]; exact ih.group
  | bare p ih => exact ih
  | die p ih => rw [tokens_die]; exact balanced_dice.append ih
  | dice p q ihp ihq => rw [tokens_dice]; exact ihp.append (balanced_dice.append ihq)
  | plain b ih => exact ih
  | negated b ih =>
    rw [tokens_negated]
    exact (balanced_other (by decide) (by decide)).append ih
  | single x ih => exact ih
  | joined x op _ y ihx ihy =>
    rw [tokens_joined]
    exact ihx.append ((balanced_other op.token_ne_open op.token_ne_close).append ihy)

/-- A parenthesis at the start of a tree is closed at its end exactly when the tree is a group. -/
theorem matches_zero_iff_isGroup (t : Derivation s) {j : Nat} (h : Matches t.tokens 0 j) :
    j + 1 = t.tokens.length ↔ t.expr.IsGroup := by
  induction t with
  | number ds => cases h.opens
  | paren b ih =>
    rw [tokens_paren, matches_group b.balanced_tokens] at h
    refine iff_of_true ?_ (Expr.isGroup_wrap _)
    rw [tokens_paren, h]
    simp
  | bare p ih => exact ih h
  | die p ih => cases h.opens
  | dice p q ihp ihq =>
    -- A parenthesis at the start is closed within the operand on the left.
    rw [tokens_dice, matches_append_left p.balanced_tokens p.tokens_pos] at h
    have hj := h.lt_length
    refine iff_of_false ?_ (by rintro ⟨n, body, he⟩; cases he)
    rw [tokens_dice, List.length_append, List.length_append, List.length_singleton]
    omega
  | plain b ih => exact ih h
  | negated b ih => cases h.opens
  | single x ih => exact ih h
  | joined x op _ y ihx ihy =>
    rw [tokens_joined, matches_append_left x.balanced_tokens x.tokens_pos] at h
    have hj := h.lt_length
    refine iff_of_false ?_ (by rintro ⟨n, body, he⟩; cases he)
    rw [tokens_joined, List.length_append, List.length_append, List.length_singleton]
    omega

/-- A group starts with a parenthesis that is closed at its end. -/
theorem exists_matches_of_isGroup (t : Derivation s) (h : t.expr.IsGroup) :
    ∃ j, Matches t.tokens 0 j ∧ j + 1 = t.tokens.length := by
  induction t with
  | number ds => obtain ⟨n, body, he⟩ := h; cases he
  | paren b ih =>
    refine ⟨b.tokens.length + 1, ?_, by simp⟩
    rw [tokens_paren]
    exact (matches_group b.balanced_tokens).2 rfl
  | bare p ih => exact ih h
  | die p ih => obtain ⟨n, body, he⟩ := h; cases he
  | dice p q ihp ihq => obtain ⟨n, body, he⟩ := h; cases he
  | plain b ih => exact ih h
  | negated b ih => obtain ⟨n, body, he⟩ := h; cases he
  | single x ih => exact ih h
  | joined x op _ y ihx ihy => obtain ⟨n, body, he⟩ := h; cases he

/-- The runs of a tree close in one piece: what starts with a parenthesis within parentheses is a
group. -/
def RunsClosed {s : Nonterminal} : Derivation s → Prop
  | number _ => True
  | paren b => b.RunsClosed ∧ (b.tokens[0]? = some .openParen → b.expr.IsGroup)
  | bare p => p.RunsClosed
  | die p => p.RunsClosed
  | dice p q => p.RunsClosed ∧ q.RunsClosed
  | plain b => b.RunsClosed
  | negated b => b.RunsClosed
  | single x => x.RunsClosed
  | joined x _ _ y => x.RunsClosed ∧ y.RunsClosed

/-- The runs of the yield close in one piece when those of the tree do. -/
theorem runsClose_tokens_iff (t : Derivation s) : RunsClose t.tokens ↔ t.RunsClosed := by
  induction t with
  | number ds =>
    rw [tokens_number]
    exact iff_of_true (runsClose_other (by decide)) trivial
  | paren b ih =>
    rw [tokens_paren, runsClose_group b.balanced_tokens, ih, RunsClosed]
    refine and_congr_right fun _ => ⟨fun h hopen => ?_, fun h j hm => ?_⟩
    · -- The parenthesis at the start has a match, since the yield closes all that it opens.
      obtain ⟨j, hm⟩ := b.balanced_tokens.exists_matches hopen
      exact (b.matches_zero_iff_isGroup hm).1 (h j hm)
    · exact (b.matches_zero_iff_isGroup hm).2 (h hm.opens)
  | bare p ih => exact ih
  | die p ih =>
    rw [tokens_die, runsClose_append balanced_dice, ih, RunsClosed]
    exact and_iff_right (runsClose_other (by decide))
  | dice p q ihp ihq =>
    rw [tokens_dice, runsClose_append p.balanced_tokens, runsClose_append balanced_dice, ihp, ihq,
      RunsClosed]
    exact and_congr_right fun _ => and_iff_right (runsClose_other (by decide))
  | plain b ih => exact ih
  | negated b ih =>
    rw [tokens_negated, runsClose_append (balanced_other (by decide) (by decide)), ih, RunsClosed]
    exact and_iff_right (runsClose_other (by decide))
  | single x ih => exact ih
  | joined x op _ y ihx ihy =>
    rw [tokens_joined, runsClose_append x.balanced_tokens,
      runsClose_append (balanced_other op.token_ne_open op.token_ne_close), ihx, ihy, RunsClosed]
    exact and_congr_right fun _ => and_iff_right (runsClose_other op.token_ne_open)

/-- Where the runs of a tree close in one piece, they nest as the groups of its expression do. -/
theorem runsNestBelow_tokens_iff (t : Derivation s) (h : t.RunsClosed) (n : Nat) :
    RunsNestBelow n t.tokens ↔ t.expr.nesting ≤ n := by
  induction t generalizing n with
  | number ds =>
    rw [tokens_number]
    exact iff_of_true (runsNestBelow_other (by decide) n) (Nat.zero_le n)
  | paren b ih =>
    rw [tokens_paren, expr]
    by_cases hopen : b.tokens[0]? = some .openParen
    · -- The body is a group, and the parentheses around it belong to its run.
      have hgroup := h.2 hopen
      obtain ⟨j, hm, hj⟩ := b.exists_matches_of_isGroup hgroup
      rw [runsNestBelow_group_run b.balanced_tokens hm hj, ih h.1, Expr.nesting_wrap_of_isGroup hgroup]
    · -- The parentheses are a run of their own.
      have hgroup : ¬ b.expr.IsGroup := by
        intro hg
        obtain ⟨j, hm, -⟩ := b.exists_matches_of_isGroup hg
        exact hopen hm.opens
      rw [runsNestBelow_group b.balanced_tokens hopen, ih h.1,
        Expr.nesting_wrap_of_not_isGroup hgroup]
      omega
  | bare p ih => exact ih h n
  | die p ih =>
    rw [tokens_die, runsNestBelow_append balanced_dice, ih h]
    exact and_iff_right (runsNestBelow_other (by decide) n)
  | dice p q ihp ihq =>
    rw [tokens_dice, runsNestBelow_append p.balanced_tokens, runsNestBelow_append balanced_dice, ihp h.1,
      ihq h.2, and_iff_right (runsNestBelow_other (by decide) n), expr, Expr.nesting, max_le_iff]
  | plain b ih => exact ih h n
  | negated b ih =>
    rw [tokens_negated, runsNestBelow_append (balanced_other (by decide) (by decide)), ih h]
    exact and_iff_right (runsNestBelow_other (by decide) n)
  | single x ih => exact ih h n
  | joined x op _ y ihx ihy =>
    rw [tokens_joined, runsNestBelow_append x.balanced_tokens,
      runsNestBelow_append (balanced_other op.token_ne_open op.token_ne_close), ihx h.1, ihy h.2,
      and_iff_right (runsNestBelow_other op.token_ne_open n), expr, Expr.nesting, max_le_iff]

end Derivation

end DiceNotation
